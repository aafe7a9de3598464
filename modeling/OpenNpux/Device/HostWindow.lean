import OpenNpux.Device.ResetControl
import OpenNpux.Device.Rules

/-!
# The device stays in its host window

Every host access of the device, a timing DMA, a page fill or flush or a synchronization,
is at `dmaSharedBase + k` for a `k` that leaves room for it in the window, in the 64-bit
arithmetic of addresses. No property of the backend is used but that only a Verilated
backend has a local EXTMEM, for which the constructor checks the synchronization range.
-/

namespace OpenNpux.Device

open Lib Bridge NPUDevice

/-- The bytes of an access lie in the shared window. -/
def InShared (p : NPUDeviceParams) (addr size : Nat) : Prop :=
  ∃ k, k + size ≤ p.dmaSharedSize ∧ addr = (p.dmaSharedBase + k) % 2 ^ 64

theorem InShared.between {p : NPUDeviceParams} {addr size : Nat} (h : InShared p addr size)
    (hNonempty : 0 < size) (hWindow : p.dmaSharedBase + p.dmaSharedSize ≤ 2 ^ 64) :
    p.dmaSharedBase ≤ addr ∧ addr + size ≤ p.dmaSharedBase + p.dmaSharedSize := by
  obtain ⟨k, hk, rfl⟩ := h
  rw [Nat.mod_eq_of_lt (by omega)]
  omega

def DeviceEvent.hostAccess : DeviceEvent → Option (Nat × Nat)
  | .hostRead addr size | .hostWrite addr size | .dmaRead addr size | .dmaWrite addr size =>
    some (addr, size)
  | .rejected _ | .drainDone | .fatal _ => none

def DeviceEvent.InWindow (p : NPUDeviceParams) (e : DeviceEvent) : Prop :=
  ∀ access, e.hostAccess = some access → InShared p access.1 access.2

theorem inShared_hostAddr {p : NPUDeviceParams} {request : CoralDmaRequest}
    (h : p.inWindow request = true) : InShared p (p.hostAddr request) request.size := by
  simp only [NPUDeviceParams.inWindow, Bool.and_eq_true, decide_eq_true_eq] at h
  exact ⟨request.addr - p.dmaExtmemBase, by omega, rfl⟩

theorem permits_inWindow (p : NPUDeviceParams) : Permits p (DeviceEvent.InWindow p) where
  access command k n _ hk := by
    rintro _ hAccess
    cases command <;> cases hAccess <;> exact ⟨k, hk, rfl⟩
  dmaRead request h := by
    rintro _ ⟨⟩
    exact inShared_hostAddr h
  dmaWrite request h := by
    rintro _ ⟨⟩
    exact inShared_hostAddr h
  rejected _ _ := by rintro _ ⟨⟩
  drainDone := by rintro _ ⟨⟩
  fatal _ := by rintro _ ⟨⟩

namespace NPUDevice

variable {B : Type} {be : CoralBackend B} {p : NPUDeviceParams}

theorem stable_true : Stable fun _ : NPUDevice B => True := fun _ _ _ _ _ _ => trivial

section Calls

variable {ok : DeviceEvent → Prop} (hPermits : Permits p ok)
  (hOpen : p.fastDma = true → (∃ b, be.hasLocalExtmem b = true) → SyncOpen p ok)
include hPermits hOpen

theorem enter_permitted (entry : Entry) (d : NPUDevice B) :
    Prog.Ensures ok (enter be p entry) d fun _ _ => True := by
  have hDma : ∀ d, True → Prog.Ensures ok (startBackendDma be p) d fun _ _ => True := fun d _ =>
    startBackendDma_ensures hPermits stable_true (fun _ => trivial) (fun _ _ _ _ => trivial)
      (fun _ _ _ _ _ => trivial) fun _ _ _ => trivial
  cases entry with
  | read addr size =>
    apply Prog.Ensures.bind (Q := fun _ _ => True) (read_ensures addr size
      (fun f _ => hPermits.fatal f) (fun _ _ _ => trivial) fun _ _ => trivial)
    exact fun _ _ _ => .pure trivial
  | write addr size data =>
    apply Prog.Ensures.bind (write_ensures (I := fun _ => True) addr size data stable_true _ trivial
      (fun _ _ f _ => hPermits.fatal f) fun _ _ _ _ => trivial)
    · exact fun _ _ _ => .pure trivial
    · exact fun hFast => syncHostToLocalExtmem_ensures (hPermits.fatal _) stable_true
        (fun _ _ _ f _ => hPermits.fatal f) (hOpen hFast) trivial fun _ => trivial
  | backendEvent =>
    apply Prog.Ensures.modify_bind
    apply processBackendEvent_ensures (I := fun _ => True) (J := fun _ => True)
    · exact processBatches_ensures (K := fun _ => True) (fun _ _ f _ => hPermits.fatal f)
        (fun _ _ _ => trivial) hDma (fun _ _ => trivial) _ trivial
    · exact fun d _ => publish_ensures stable_true hPermits.windowOpen
        (fun _ _ f _ => hPermits.fatal f) hOpen trivial trivial
    · exact hPermits.drainDone
    · exact fun _ _ => trivial
  | dmaCallback data =>
    apply Prog.Ensures.modify_bind
    exact completeBackendDma_ensures hPermits.fatal hPermits.drainDone data
      fun _ _ _ _ => trivial
  | drain => exact .modify trivial
  | resume => exact .modify trivial
  | hostStore addr size data => exact .modify trivial

theorem calls_permitted (cs : List Call) (d : NPUDevice B) :
    Prog.Ensures ok (calls be p cs) d fun _ _ => True := by
  induction cs generalizing d with
  | nil => exact .pure trivial
  | cons c cs ih =>
    apply Prog.Ensures.bind (Q := fun _ _ => True)
    · exact .modify_bind (enter_permitted hPermits hOpen c.entry _)
    · exact fun _ d' _ => ih d'

end Calls

theorem startBackendDma_outside {d : NPUDevice B} {request : CoralDmaRequest}
    (hFree : d.dmaActive = false) (hPending : be.hasDmaRequest d.backend = true)
    (hRequest : (be.dmaRequest d.backend).result = some request)
    (hOutside : p.inWindow request = false) :
    Prog.Ensures (fun e => e.hostAccess = none) (startBackendDma be p) d fun _ d' =>
      ∃ b, d' = settled be { d with backend := b, dmaErrors := d.dmaErrors + 1 } := by
  apply Prog.Ensures.get_bind
  apply Prog.Ensures.ite
  · intro _
    apply ensures_onBackend_bind (fun _ _ => rfl)
    intro request' hRequest'
    obtain rfl : request = request' := Option.some.inj (hRequest.symm.trans hRequest')
    apply Prog.Ensures.ite
    · intro hWindow
      rw [hOutside] at hWindow
      cases hWindow
    · intro _
      apply Prog.Ensures.emit_bind
      · rfl
      · apply completeBackendDmaError_ensures
        · exact fun _ => rfl
        · rfl
        · exact fun b _ _ _ => ⟨b, rfl⟩
  · exact fun h => absurd ⟨hFree, hPending⟩ h

theorem sync_range_of_accepted {verilatedCoral : Bool} (hAccepted : p.Accepted verilatedCoral)
    (hLocal : ∀ b, be.hasLocalExtmem b = true → verilatedCoral = true) (hFast : p.fastDma = true)
    (h : ∃ b, be.hasLocalExtmem b = true) :
    p.fastDmaSyncOffset + p.fastDmaSyncSize ≤ p.dmaSharedSize := by
  obtain ⟨b, hb⟩ := h
  have hRange := hAccepted.syncRange (hLocal b hb) hFast
  omega

theorem host_accesses_in_window (be : CoralBackend B) (p : NPUDeviceParams) {verilatedCoral : Bool}
    (hAccepted : p.Accepted verilatedCoral)
    (hLocal : ∀ b, be.hasLocalExtmem b = true → verilatedCoral = true) :
    (∀ (cs : List Call) (d : NPUDevice B), ∀ e ∈ (calls be p cs d).trace, e.InWindow p) ∧
      (∀ addr size, InShared p addr size → 0 < size →
        p.dmaSharedBase + p.dmaSharedSize ≤ 2 ^ 64 →
        p.dmaSharedBase ≤ addr ∧ addr + size ≤ p.dmaSharedBase + p.dmaSharedSize) ∧
      ∀ (d : NPUDevice B) request, d.dmaActive = false → be.hasDmaRequest d.backend = true →
        (be.dmaRequest d.backend).result = some request → p.inWindow request = false →
        (∀ e ∈ (startBackendDma be p d).trace, e.hostAccess = none) ∧
          ((startBackendDma be p d).result = some () → ∃ b, (startBackendDma be p d).state =
            settled be { d with backend := b, dmaErrors := d.dmaErrors + 1 }) := by
  refine ⟨?_, fun _ _ h => h.between, ?_⟩
  · intro cs d
    have hPermits := permits_inWindow p
    apply (calls_permitted hPermits _ cs d).1
    exact fun hFast h => syncOpen_of_range hPermits.windowOpen
      (sync_range_of_accepted hAccepted hLocal hFast h)
  · intro d request hFree hPending hRequest hOutside
    obtain ⟨hTrace, hState⟩ := startBackendDma_outside hFree hPending hRequest hOutside
    exact ⟨hTrace, hState ()⟩

/-- The board's window with fast DMA and a Verilated backend. -/
def boardParams : NPUDeviceParams where
  pioAddr := 0x10000000
  dmaExtmemBase := 0x20000000
  dmaSharedBase := 0x8f000000
  dmaSharedSize := 8 * 1024 * 1024
  fastDma := true
  fastDmaEventBatch := 1024
  fastDmaSyncOffset := 0x400000
  fastDmaSyncSize := 4096
  backendId := 0x4e505502
  firmwareEntry := 0
  cacheBlockSize := 64

theorem boardParams_accepted : boardParams.Accepted true :=
  ⟨by decide, by decide, by decide, by decide, by decide⟩

theorem host_accesses_in_window_board :
    boardParams.Accepted true ∧
      ∀ (cs : List Call) (d : NPUDevice (CoralVerilatedBackend Unit)),
        ∀ e ∈ (calls (verilated idleBridge verilatedDefaults) boardParams cs d).trace,
          e.InWindow boardParams :=
  ⟨boardParams_accepted, (host_accesses_in_window
    (verilated idleBridge verilatedDefaults) boardParams boardParams_accepted fun _ _ => rfl).1⟩

end NPUDevice
end OpenNpux.Device
