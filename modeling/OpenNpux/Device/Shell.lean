import OpenNpux.Device.Entry

/-!
# What every action of the shell does

A relation between the states around an action and its events holds of a whole entry
point if it holds of each elementary action and composes. The elementary actions are
those of `Shell`; serving a request is left to the user of the rules.
-/

namespace OpenNpux.Device.NPUDevice

open Lib Bridge

variable {B α : Type}

/-- A relation that holds of the elementary actions of the shell. -/
class Shell (R : List DeviceEvent → NPUDevice B → NPUDevice B → Prop) : Prop
    extends Prog.Composes R where
  backend : ∀ (t : List Fatal) d b, R (t.map .fatal) d { d with backend := b }
  control : ∀ d active requests completions event drain tick flight, R [] d { d with
    dmaActive := active, dmaRequests := requests, dmaCompletions := completions
    backendEvent := event, drainState := drain, curTick := tick, inFlight := flight }
  access : ∀ (command : MemCmd) addr size d memory,
    R [command.event addr size] d { d with memory := memory }
  host : ∀ d memory, R [] d { d with memory := memory }
  fill : ∀ d cache valid, R [] d { d with fastDmaCache := cache, fastDmaPageValid := valid }
  clean : ∀ d page, R [] d { d with
    fastDmaPageDirty := fun i => if i = page then false else d.fastDmaPageDirty i }
  invalidate : ∀ d, R [] d { d with
    fastDmaPageValid := fun _ => false, fastDmaPageDirty := fun _ => false }
  drainDone : ∀ d, R [.drainDone] d d

namespace Shell

variable {R : List DeviceEvent → NPUDevice B → NPUDevice B → Prop} [Shell R]
  {be : CoralBackend B} {p : NPUDeviceParams}

theorem onBackend (callee : Prog B Fatal α) : Prog.Follows R (NPUDevice.onBackend callee) :=
  fun d _ _ => backend (callee d.backend).trace d (callee d.backend).state

theorem functionalMemoryRange (command : MemCmd) (addr size start : Nat) (buffer : ByteMem) :
    Prog.Follows R (NPUDevice.functionalMemoryRange p command addr size start buffer) := by
  have hAccess : ∀ addr size start buffer,
      Prog.Follows R (functionalMemoryAccess command addr size start buffer) := by
    intro addr size start buffer d _ _
    cases command with
    | readReq => exact access .readReq addr size d d.memory
    | writeReq => exact access .writeReq addr size d _
  have hLoop : ∀ fuel completed buffer,
      Prog.Follows R (functionalMemoryLoop p command addr size start fuel completed buffer) := by
    intro fuel
    induction fuel with
    | zero => exact fun _ _ => .pure _
    | succ fuel ih =>
      intro completed buffer
      exact .ite (.bind (hAccess _ _ _ _) fun _ => ih _ _) (.pure _)
  exact .bind (onBackend _) fun _ => hLoop _ _ _

theorem fillPage (page : Nat) : Prog.Follows R (NPUDevice.fillPage p page) :=
  .get_bind fun _ => .ite (.bind (functionalMemoryRange _ _ _ _ _) fun _ =>
    .modify fun d => fill d _ _) (.pure _)

theorem flushFastDmaCache : Prog.Follows R (NPUDevice.flushFastDmaCache p) :=
  .loop fun page _ => .get_bind fun _ => .ite (.bind (functionalMemoryRange _ _ _ _ _) fun _ =>
    .modify fun d => clean d page) (.pure _)

theorem settle : Prog.Follows R (syncBackendEvent be >>= fun _ => checkDrainDone be) := by
  have hSignal : Prog.Follows R (Prog.emit .drainDone) := .emit drainDone
  exact .bind (.modify fun d => control d _ _ _ _ _ _ _) fun _ => .get_bind fun _ => .ite
    (.bind hSignal fun _ => .modify fun d => control d _ _ _ _ _ _ _) (.pure _)

theorem completeBackendDma (data : ByteMem) :
    Prog.Follows R (NPUDevice.completeBackendDma be data) :=
  .get_bind fun _ => .bind (onBackend _) fun _ => .bind (onBackend _) fun _ =>
    .bind (.modify fun d => control d _ _ _ _ _ _ _) fun _ => .get_bind fun _ =>
    .bind (onBackend _) fun _ => .bind (.modify fun d => control d _ _ _ _ _ _ _) fun _ =>
    .get_bind fun _ => .bind (onBackend _) fun _ => settle

theorem completeBackendDmaError (hError : ∀ d : NPUDevice B,
    R [] d { d with dmaErrors := d.dmaErrors + 1 }) :
    Prog.Follows R (NPUDevice.completeBackendDmaError be) :=
  .get_bind fun _ => .bind (onBackend _) fun _ => .get_bind fun _ => .bind (onBackend _) fun _ =>
    .get_bind fun _ => .bind (onBackend _) fun _ => .bind (.modify hError) fun _ =>
      .get_bind fun _ =>
    .bind (onBackend _) fun _ => settle

theorem fastDmaAccess {request : CoralDmaRequest}
    (hPut : request.type = .write → ∀ d cache page, R [] d { d with
      fastDmaCache := cache
      fastDmaPageDirty := fun i => if i = page then true else d.fastDmaPageDirty i })
    (hostAddr : Nat) (data : ByteMem) :
    Prog.Follows R (NPUDevice.fastDmaAccess p request hostAddr data) := by
  refine .bind (onBackend _) fun _ => .bind (fillPage _) fun _ => ?_
  cases hType : request.type with
  | read => exact .get_bind fun _ => .pure _
  | write => exact .bind (.modify fun d => hPut hType d _ _) fun _ => .pure _

theorem submitDma {request : CoralDmaRequest}
    (hPut : request.type = .write → ∀ d cache page, R [] d { d with
      fastDmaCache := cache
      fastDmaPageDirty := fun i => if i = page then true else d.fastDmaPageDirty i })
    (hRead : ∀ addr size d, R [.dmaRead addr size] d d)
    (hWrite : ∀ addr size d, R [.dmaWrite addr size] d d) :
    Prog.Follows R (NPUDevice.submitDma be p request) := by
  have hIssue : Prog.Follows R (issueTimingDma p request) := by
    unfold issueTimingDma
    cases request.type with
    | read => exact .bind (.emit (hRead _ _)) fun _ => .modify fun d => control d _ _ _ _ _ _ _
    | write => exact .bind (.emit (hWrite _ _)) fun _ => .modify fun d => control d _ _ _ _ _ _ _
  exact .bind (.modify fun d => control d _ _ _ _ _ _ _) fun _ => .ite
    (.bind (fastDmaAccess hPut _ _) fun _ => completeBackendDma _) hIssue

theorem publish : Prog.Follows R (NPUDevice.publish be p) :=
  .get_bind fun _ => .ite (.ite (.bind (onBackend _) fun _ =>
    .bind (functionalMemoryRange _ _ _ _ _) fun _ => .modify fun d => control d _ _ _ _ _ _ _)
    flushFastDmaCache) (.pure _)

theorem read (addr size : Nat) : Prog.Follows R (NPUDevice.read be p addr size) := by
  unfold NPUDevice.read answerRead
  apply Prog.Follows.bind
  · apply Prog.Follows.get_bind
    intro d
    cases if size = 4 then d.shellRegister be p (pioOffset p addr) else none with
    | some value => exact .pure _
    | none => exact onBackend _
  · exact fun _ => .bind (.modify fun d => control d _ _ _ _ _ _ _) fun _ => .pure _

theorem write (addr size : Nat) (data : ByteMem) :
    Prog.Follows R (NPUDevice.write be p addr size data) := by
  have hSync : Prog.Follows R (syncHostToLocalExtmem be p) :=
    .get_bind fun _ => .ite (.bind (functionalMemoryRange _ _ _ _ _) fun _ =>
      .bind (onBackend _) fun _ => .modify fun d => control d _ _ _ _ _ _ _) (.pure _)
  exact .bind (.when _ hSync) fun _ => .get_bind fun _ => .bind (onBackend _) fun _ =>
    .bind (.when _ (.modify invalidate)) fun _ => .bind (.modify fun d => control d _ _ _ _ _ _ _)
      fun _ => .pure _

theorem enter (entry : Entry) (hDma : entry = .backendEvent →
    Prog.Follows R (startBackendDma be p)) :
    Prog.Follows R (NPUDevice.enter be p entry) := by
  have hBatches (hDma : Prog.Follows R (startBackendDma be p)) :
      ∀ budget, Prog.Follows R (processBatches be p budget) := by
    intro budget
    induction budget with
    | zero => exact .pure _
    | succ budget ih =>
      exact .get_bind fun _ => .bind (onBackend _) fun _ => .bind hDma fun _ => .get_bind fun _ =>
        .ite (.bind (.modify fun d => control d _ _ _ _ _ _ _) fun _ => ih) (.pure _)
  cases entry with
  | read addr size => exact .bind (read addr size) fun _ => .pure _
  | write addr size data => exact .bind (write addr size data) fun _ => .pure _
  | backendEvent =>
    exact .bind (.modify fun d => control d _ _ _ _ _ _ _) fun _ =>
      .bind (hBatches (hDma rfl) _) fun _ => .bind publish fun _ => settle
  | dmaCallback data =>
    exact .bind (.modify fun d => control d _ _ _ _ _ _ _) fun _ => completeBackendDma data
  | drain => exact .modify fun d => control d _ _ _ _ _ _ _
  | resume => exact .modify fun d => control d _ _ _ _ _ _ _
  | hostStore addr size data => exact .modify fun d => host d _

end Shell
end OpenNpux.Device.NPUDevice
