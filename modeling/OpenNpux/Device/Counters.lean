import OpenNpux.Device.Drain
import OpenNpux.Device.Shell

/-!
# The DMA counters

Requests and completions differ by the request under way, on every path that counts one,
and the errors by the requests outside the window, which are events of a run. A
checkpoint is only taken of a quiet device, so the counts that it restores agree.
-/

namespace OpenNpux.Device

open Lib Bridge

def DeviceEvent.isRejected : DeviceEvent → Bool
  | .rejected _ => true
  | _ => false

namespace NPUDevice

variable {B α : Type}

/-! ## Errors are rejected requests -/

/-- The errors counted since `d` are the requests rejected. -/
def Tallies (t : List DeviceEvent) (d d' : NPUDevice B) : Prop :=
  d'.dmaErrors = d.dmaErrors + UInt32.ofNat (t.countP DeviceEvent.isRejected)

instance : Prog.Composes (Tallies (B := B)) where
  nil d := by simp [Tallies]
  append {t t' d d' d''} h h' := by
    rw [Tallies] at h h' ⊢
    rw [h', h, List.countP_append, UInt32.ofNat_add, UInt32.add_assoc]

section Tallies

variable {be : CoralBackend B} {p : NPUDeviceParams}

theorem tallies_silent {t : List DeviceEvent} {d d' : NPUDevice B}
    (hEvents : ∀ e ∈ t, e.isRejected = false) (hErrors : d'.dmaErrors = d.dmaErrors) :
    Tallies t d d' := by
  have hNone : t.countP DeviceEvent.isRejected = 0 := by simpa [List.countP_eq_zero] using hEvents
  simp [Tallies, hNone, hErrors]

instance : Shell (Tallies (B := B)) where
  backend t d b := tallies_silent (by simp [DeviceEvent.isRejected]) rfl
  control _ _ _ _ _ _ _ _ := tallies_silent (by simp) rfl
  access command _ _ _ _ := tallies_silent
    (by cases command <;> simp [MemCmd.event, DeviceEvent.isRejected]) rfl
  host _ _ := tallies_silent (by simp) rfl
  fill _ _ _ := tallies_silent (by simp) rfl
  clean _ _ := tallies_silent (by simp) rfl
  invalidate _ := tallies_silent (by simp) rfl
  drainDone _ := tallies_silent (by simp [DeviceEvent.isRejected]) rfl

theorem tallies_rejected (request : CoralDmaRequest) :
    Prog.Follows Tallies
      (Prog.emit (.rejected request) >>= fun _ => completeBackendDmaError be) := by
  intro d a (ha : (completeBackendDmaError be d).result = some a)
  have hError : Prog.Ensures (fun e => e.isRejected = false) (completeBackendDmaError be) d
      fun _ d' => d'.dmaErrors = d.dmaErrors + 1 := by
    apply completeBackendDmaError_ensures
    · exact fun _ => rfl
    · rfl
    · exact fun _ _ _ _ => rfl
  have hOthers : (completeBackendDmaError be d).trace.countP DeviceEvent.isRejected = 0 := by
    simpa [List.countP_eq_zero] using hError.1
  have hTrace : ((Prog.emit (.rejected request) >>= fun _ => completeBackendDmaError be) d).trace =
      .rejected request :: (completeBackendDmaError be d).trace := rfl
  rw [Tallies, hTrace, List.countP_cons_of_pos rfl, hOthers]
  exact hError.2 a ha

theorem tallies_submitDma (request : CoralDmaRequest) :
    Prog.Follows Tallies (submitDma be p request) := by
  apply Shell.submitDma
  · exact fun _ _ _ _ => tallies_silent (by simp) rfl
  · exact fun _ _ _ => tallies_silent (by simp [DeviceEvent.isRejected]) rfl
  · exact fun _ _ _ => tallies_silent (by simp [DeviceEvent.isRejected]) rfl

theorem tallies_startBackendDma : Prog.Follows Tallies (startBackendDma be p) :=
  .get_bind fun _ => .ite (.bind (Shell.onBackend _) fun request =>
    .ite (tallies_submitDma request) (tallies_rejected request)) (.pure _)

theorem tallies_calls (cs : List Call) : Prog.Follows Tallies (calls be p cs) := by
  induction cs with
  | nil => exact .pure _
  | cons c cs ih =>
    exact .bind (.bind (.modify fun d => Shell.control d _ _ _ _ _ _ _) fun _ =>
      Shell.enter c.entry fun _ => tallies_startBackendDma) fun _ => ih

end Tallies

/-! ## Requests and completions -/

/-- A backend keeps its request until it is completed. -/
structure KeepsRequest (be : CoralBackend B) : Prop where
  read : ∀ offset size b, be.hasDmaRequest b = true →
    be.hasDmaRequest (be.read offset size b).state = true
  write : ∀ now offset size data b, be.hasDmaRequest b = true →
    be.hasDmaRequest (be.write now offset size data b).state = true
  processEvent : ∀ now b, be.hasDmaRequest b = true → (be.processEvent now b).result = some () →
    be.hasDmaRequest (be.processEvent now b).state = true
  dmaRequest : ∀ b, be.hasDmaRequest b = true → be.hasDmaRequest (be.dmaRequest b).state = true
  readLocalExtmem : ∀ addr size b, be.hasDmaRequest b = true →
    be.hasDmaRequest (be.readLocalExtmem addr size b).state = true
  writeLocalExtmem : ∀ addr size data b, be.hasDmaRequest b = true →
    be.hasDmaRequest (be.writeLocalExtmem addr size data b).state = true

structure Balanced (be : CoralBackend B) (d : NPUDevice B) : Prop where
  counts : d.dmaRequests - d.dmaCompletions = if d.dmaActive then 1 else 0
  pending : d.dmaActive = true → be.hasDmaRequest d.backend = true

section Balanced

variable {be : CoralBackend B} {p : NPUDeviceParams} {d : NPUDevice B}

theorem stable_balanced : Stable (Balanced be) := fun _ _ _ _ _ h => ⟨h.counts, h.pending⟩

theorem Balanced.idle (h : Balanced be d) (hFree : d.dmaActive = false) :
    d.dmaRequests - d.dmaCompletions = 0 := by
  simpa [hFree] using h.counts

theorem Balanced.countBoth (h : Balanced be d) {b : B}
    (hPending : d.dmaActive = true → be.hasDmaRequest b = true) :
    Balanced be { d with
      backend := b, dmaRequests := d.dmaRequests + 1, dmaCompletions := d.dmaCompletions + 1 } := by
  constructor
  · have hCounts := h.counts
    simp only
    grind
  · exact hPending

theorem startBackendDma_balanced (hKeeps : KeepsRequest be) (h : Balanced be d) :
    Prog.Ensures (fun _ => True) (startBackendDma be p) d fun _ => Balanced be := by
  apply startBackendDma_ensures (permits_true p) stable_balanced
  · exact fun _ => h
  · intro b _ hFree _
    exact ⟨h.counts, fun hActive => absurd (hFree.symm.trans hActive) (by decide)⟩
  · intro b _ hFree _ _
    have hBoth := h.countBoth (b := b) fun hActive => absurd (hFree.symm.trans hActive) (by decide)
    exact ⟨hBoth.counts, hBoth.pending⟩
  · intro hFree _ hRequest
    have hIdle := h.idle hFree
    constructor
    · simp only
      grind
    · exact fun _ => hKeeps.dmaRequest _ hRequest

theorem processBackendEvent_balanced (hKeeps : KeepsRequest be) (h : Balanced be d) :
    Prog.Ensures (fun _ => True) (processBackendEvent be p) d fun _ => Balanced be := by
  apply processBackendEvent_ensures (I := Balanced be) (J := Balanced be)
  · apply processBatches_ensures (K := Balanced be)
    · exact fun _ _ _ _ => trivial
    · exact fun d h hReturned => ⟨h.counts, fun hActive =>
        hKeeps.processEvent _ _ (h.pending hActive) hReturned⟩
    · exact fun d h => startBackendDma_balanced hKeeps h
    · exact fun d h => ⟨h.counts, h.pending⟩
    · exact h
  · intro d h
    apply publish_ensures stable_balanced (permits_true p).windowOpen
    · exact fun _ _ _ _ => trivial
    · exact fun _ _ _ _ _ _ _ => trivial
    · exact h
    · exact h.countBoth fun hActive => hKeeps.readLocalExtmem _ _ _ (h.pending hActive)
  · trivial
  · exact fun d h => ⟨h.counts, h.pending⟩

theorem write_balanced (hKeeps : KeepsRequest be) (addr size : Nat) (data : ByteMem)
    (h : Balanced be d) :
    Prog.Ensures (fun _ => True) (write be p addr size data) d fun _ => Balanced be := by
  apply write_ensures (I := Balanced be)
  · exact stable_balanced
  · intro _
    apply syncHostToLocalExtmem_ensures trivial stable_balanced
    · exact fun _ _ _ _ _ => trivial
    · exact fun _ _ _ _ _ _ => trivial
    · exact h
    · exact fun data => h.countBoth fun hActive =>
        hKeeps.writeLocalExtmem _ _ _ _ (h.pending hActive)
  · exact h
  · exact fun _ _ _ _ => trivial
  · exact fun d h _ _ => ⟨h.counts, fun hActive => hKeeps.write _ _ _ _ _ (h.pending hActive)⟩

theorem enter_balanced (hKeeps : KeepsRequest be) (entry : Entry) (h : Balanced be d) :
    Prog.Ensures (fun _ => True) (enter be p entry) d fun _ => Balanced be := by
  cases entry with
  | read addr size =>
    apply Prog.Ensures.bind (Q := fun _ => Balanced be)
    · apply read_ensures
      · exact fun _ _ => trivial
      · exact fun _ _ _ => ⟨h.counts, h.pending⟩
      · exact fun _ _ => ⟨h.counts, fun hActive => hKeeps.read _ _ _ (h.pending hActive)⟩
    · exact fun _ _ h => .pure h
  | write addr size data =>
    apply Prog.Ensures.bind (write_balanced hKeeps addr size data h)
    exact fun _ _ h => .pure h
  | backendEvent =>
    apply Prog.Ensures.modify_bind
    exact processBackendEvent_balanced hKeeps ⟨h.counts, h.pending⟩
  | dmaCallback data =>
    apply Prog.Ensures.modify_bind
    apply completeBackendDma_ensures (fun _ => trivial) trivial data
    intro b _ (hActive : d.dmaActive = true) _
    constructor
    · have hCounts := h.counts
      rw [hActive] at hCounts
      simp only [settled]
      grind
    · exact fun hBusy => by cases hBusy
  | drain => exact .modify ⟨h.counts, h.pending⟩
  | resume => exact .modify ⟨h.counts, h.pending⟩
  | hostStore addr size data => exact .modify ⟨h.counts, h.pending⟩

end Balanced

/-! ## Runs and checkpoints -/

/-- The devices of a simulation that may have been restored from checkpoints of others. -/
inductive Reached (be : CoralBackend B) (p : NPUDeviceParams) : NPUDevice B → Prop
  | constructed (backend : B) (memory : ByteMem) : Reached be p (constructed backend memory)
  | calls {d : NPUDevice B} (cs : List Call) (hReached : Reached be p d)
      (hReturned : (calls be p cs d).result = some ()) : Reached be p (calls be p cs d).state
  | restored {d : NPUDevice B} {cp : Checkpoint} (hReached : Reached be p d)
      (hAccepted : (serialize be d).result = some cp) (backend : B) (memory : ByteMem) :
      Reached be p (unserialize cp (NPUDevice.constructed backend memory)).state

section Reached

variable {be : CoralBackend B} {p : NPUDeviceParams} {d : NPUDevice B}

theorem serialize_quiet {cp : Checkpoint} (h : (serialize be d).result = some cp) :
    d.dmaQuiesced be = true ∧ cp = ⟨some d.dmaRequests, some d.dmaCompletions,
      some d.dmaErrors⟩ := by
  cases hQuiet : d.dmaQuiesced be with
  | true =>
    simp [serialize, deviceFatalIf, fatalIf, onBackend, hQuiet, Prog.bind_apply] at h
    exact ⟨rfl, h.symm⟩
  | false => simp [serialize, deviceFatalIf, fatalIf, fatal, onBackend, hQuiet,
      Prog.bind_apply] at h

theorem calls_balanced (hKeeps : KeepsRequest be) (cs : List Call) (h : Balanced be d) :
    Prog.Ensures (fun _ => True) (calls be p cs) d fun _ => Balanced be := by
  induction cs generalizing d with
  | nil => exact .pure h
  | cons c cs ih =>
    apply Prog.Ensures.bind (Q := fun _ => Balanced be)
    · apply Prog.Ensures.modify_bind
      exact enter_balanced hKeeps c.entry ⟨h.counts, h.pending⟩
    · exact fun _ _ h => ih h

theorem Reached.balanced (hKeeps : KeepsRequest be) (h : Reached be p d) : Balanced be d := by
  induction h with
  | constructed backend memory =>
    exact ⟨by simp [NPUDevice.constructed], fun hActive => by cases hActive⟩
  | calls cs _ hReturned ih => exact (calls_balanced hKeeps cs ih).2 () hReturned
  | restored _ hAccepted backend memory ih =>
    obtain ⟨hQuiet, rfl⟩ := serialize_quiet hAccepted
    simp only [dmaQuiesced, Bool.and_eq_true, Bool.not_eq_true'] at hQuiet
    exact ⟨ih.idle hQuiet.1.1, fun hActive => by cases hActive⟩

end Reached

/-- What the host can rely on about the counters of a device. -/
structure CountersAccount (be : CoralBackend B) (p : NPUDeviceParams) (d : NPUDevice B) : Prop where
  counts : d.dmaRequests - d.dmaCompletions = if d.dmaActive then 1 else 0
  errors : ∀ cs, (calls be p cs d).result = some () → (calls be p cs d).state.dmaErrors =
    d.dmaErrors + UInt32.ofNat ((calls be p cs d).trace.countP DeviceEvent.isRejected)
  rejected : ∀ cs request, .rejected request ∈ (calls be p cs d).trace → p.inWindow request = false
  outside : ∀ request, d.dmaActive = false → be.hasDmaRequest d.backend = true →
    (be.dmaRequest d.backend).result = some request → p.inWindow request = false →
    (startBackendDma be p d).result = some () →
    (startBackendDma be p d).state.dmaErrors = d.dmaErrors + 1 ∧
      (startBackendDma be p d).state.dmaRequests = d.dmaRequests ∧
      (startBackendDma be p d).state.dmaCompletions = d.dmaCompletions
  stateWord : hasBit (d.dmaStateWord be) 2 = true → hasBit (d.dmaStateWord be) 1 = true
  quiesced : d.dmaQuiesced be = true → d.shellRegister be p 0x30fe4 = d.shellRegister be p 0x30fe8

theorem permits_outside (p : NPUDeviceParams) :
    Permits p fun e => ∀ request, e = .rejected request → p.inWindow request = false where
  access command _ _ _ _ := by cases command <;> rintro _ ⟨⟩
  dmaRead _ _ := by rintro _ ⟨⟩
  dmaWrite _ _ := by rintro _ ⟨⟩
  rejected _ hOutside := by
    rintro _ ⟨⟩
    exact hOutside
  drainDone := by rintro _ ⟨⟩
  fatal _ := by rintro _ ⟨⟩

theorem Balanced.account {be : CoralBackend B} {p : NPUDeviceParams} {d : NPUDevice B}
    (h : Balanced be d) : CountersAccount be p d where
  counts := h.counts
  errors cs hReturned := tallies_calls cs d () hReturned
  rejected cs request hRejected := by
    apply (calls_permitted (permits_outside p) _ cs d).1 _ hRejected request rfl
    intro _ _ command _ _ _ _
    cases command <;> rintro _ ⟨⟩
  outside request hFree hPending hRequest hOutside hReturned := by
    obtain ⟨b, hState⟩ := (startBackendDma_outside hFree hPending hRequest hOutside).2 () hReturned
    rw [hState]
    exact ⟨rfl, rfl, rfl⟩
  stateWord hActive := by
    cases hBusy : d.dmaActive with
    | true => simp [dmaStateWord, hBusy, h.pending hBusy, hasBit]
    | false =>
      cases hRequest : be.hasDmaRequest d.backend <;>
        simp [dmaStateWord, hBusy, hRequest, hasBit] at hActive
  quiesced hQuiet := by
    simp only [dmaQuiesced, Bool.and_eq_true, Bool.not_eq_true'] at hQuiet
    have hEqual : d.dmaRequests = d.dmaCompletions := by
      have hIdle := h.idle hQuiet.1.1
      grind
    simp [shellRegister, hEqual]

theorem stageA_keepsRequest (a : StageAParams) : KeepsRequest (stageA a) where
  read _ _ _ h := by cases h
  write _ _ _ _ _ h := by cases h
  processEvent _ _ h := by cases h
  dmaRequest _ h := by cases h
  readLocalExtmem _ _ _ h := by cases h
  writeLocalExtmem _ _ _ _ h := by cases h

theorem verilated_keepsRequest {M : Type} (br : CoralBridge M) (v : VerilatedParams) :
    KeepsRequest (verilated br v) where
  read offset size b h := by
    obtain ⟨_, _, hRead⟩ := verilated_read br v offset size b
    rw [hRead]
    exact h
  write now offset size data b h := by
    obtain ⟨_, ⟨_, hWrite⟩ | ⟨_, hWrite⟩⟩ := verilated_write br v now offset size data b
    all_goals
      rw [hWrite]
      exact h
  processEvent now b h hReturned := by
    have hProcessed := (CoralVerilatedBackend.processEvent_ensures br v now b).2 () hReturned
    change (CoralVerilatedBackend.processEvent br v now b).state.dmaRequestPending = true
    generalize (CoralVerilatedBackend.processEvent br v now b).state = b' at hProcessed ⊢
    cases hProcessed with
    | idle => exact h
    | proceeds => exact h
    | waits => rfl
    | halts => exact h
  dmaRequest b h := by
    rw [show (verilated br v).dmaRequest b = _ from CoralVerilatedBackend.dmaRequest_pending h]
    exact h
  readLocalExtmem addr size b h := by
    obtain ⟨_, _, hRead, _⟩ := verilated_readLocalExtmem br v addr size b
    rw [hRead]
    exact h
  writeLocalExtmem addr size data b h := by
    obtain ⟨_, _, _, hWrite, _⟩ := verilated_writeLocalExtmem br v addr size data b
    rw [hWrite]
    exact h

theorem dma_counters_account :
    (∀ (a : StageAParams) (p : NPUDeviceParams) (d : NPUDevice CoralStageABackend),
      Reached (stageA a) p d → CountersAccount (stageA a) p d) ∧
    ∀ (M : Type) (br : CoralBridge M) (v : VerilatedParams) (p : NPUDeviceParams)
      (d : NPUDevice (CoralVerilatedBackend M)),
      Reached (verilated br v) p d → CountersAccount (verilated br v) p d :=
  ⟨fun a _ _ h => (h.balanced (stageA_keepsRequest a)).account,
    fun _ br v _ _ h => (h.balanced (verilated_keepsRequest br v)).account⟩

theorem dma_counters_account_servedRead :
    CountersAccount (verilated (scriptedBridge firstRead) verilatedDefaults) timingParams
      (calls (verilated (scriptedBridge firstRead) verilatedDefaults) timingParams servedRead
        (scriptedDevice [(1, 2)])).state :=
  dma_counters_account.2 Script _ _ _ _ (.calls servedRead (.constructed _ _) (by decide))

end NPUDevice
end OpenNpux.Device
