import OpenNpux.Device.Rules
import OpenNpux.Lib.Lockstep

/-!
# The same device at another time

Two devices that differ in the tick and in when their event is due do the same in every
function of the shell, if their backends do. The backends may differ in what a relation
between their states allows, and the devices in how many batches they run in an event.
Both ticks are early enough for the backends not to overflow.
-/

namespace OpenNpux.Device.NPUDevice

open Lib Bridge

variable {B α : Type}

/-- Two backends whose calls go together on related states, at any two ticks that fit. -/
structure Together (fits : Nat → Prop) (R : B → B → Prop) (be be' : CoralBackend B) : Prop where
  hasPendingEvent : ∀ {b b'}, R b b' → be.hasPendingEvent b = be'.hasPendingEvent b'
  hasDmaRequest : ∀ {b b'}, R b b' → be.hasDmaRequest b = be'.hasDmaRequest b'
  dmaRequest : ∀ {b b'}, R b b' → Prog.Lockstep R be.dmaRequest b be'.dmaRequest b'
  completeDma : ∀ {b b'} now now' data size error, fits now → fits now' → R b b' →
    Prog.Lockstep R (be.completeDma now data size error) b (be'.completeDma now' data size error) b'
  hasLocalExtmem : ∀ {b b'}, R b b' → be.hasLocalExtmem b = be'.hasLocalExtmem b'
  readLocalExtmem : ∀ {b b'} addr size, R b b' →
    Prog.Lockstep R (be.readLocalExtmem addr size) b (be'.readLocalExtmem addr size) b'

def SameButTime (fits : Nat → Prop) (R : B → B → Prop) (d d' : NPUDevice B) : Prop :=
  ∃ b tick event, d' = { d with backend := b, curTick := tick, backendEvent := event } ∧
    fits d.curTick ∧ fits tick ∧ R d.backend b

def SameButBatch (p p' : NPUDeviceParams) : Prop :=
  ∃ batch, p' = { p with fastDmaEventBatch := batch }

theorem SameButBatch.refl (p : NPUDeviceParams) : SameButBatch p p := ⟨_, rfl⟩

variable {fits : Nat → Prop} {R : B → B → Prop} {be be' : CoralBackend B} {p p' : NPUDeviceParams}
    {d d' : NPUDevice B}

theorem SameButTime.backend (h : SameButTime fits R d d') : R d.backend d'.backend := by
  obtain ⟨b, tick, event, rfl, hNow, hTick, hBackend⟩ := h
  exact hBackend

theorem SameButTime.fits_left (h : SameButTime fits R d d') : fits d.curTick := by
  obtain ⟨b, tick, event, rfl, hNow, -⟩ := h
  exact hNow

theorem SameButTime.fits_right (h : SameButTime fits R d d') : fits d'.curTick := by
  obtain ⟨b, tick, event, rfl, -, hTick, -⟩ := h
  exact hTick

theorem SameButTime.trans (hTrans : ∀ a b c, R a b → R b c → R a c) {d'' : NPUDevice B}
    (h : SameButTime fits R d d') (h' : SameButTime fits R d' d'') : SameButTime fits R d d'' := by
  obtain ⟨b, tick, event, rfl, hNow, hTick, hBackend⟩ := h
  obtain ⟨b', tick', event', rfl, -, hTick', hBackend'⟩ := h'
  exact ⟨b', tick', event', rfl, hNow, hTick', hTrans _ _ _ hBackend hBackend'⟩

namespace SameButTime

theorem onBackend {S : B → B → Prop} {callee callee' : Prog B Fatal α}
    (hCall : Prog.Lockstep R callee d.backend callee' d'.backend) (h : SameButTime fits S d d') :
    Prog.Lockstep (SameButTime fits R) (NPUDevice.onBackend callee) d
      (NPUDevice.onBackend callee') d' := by
  obtain ⟨b, tick, event, rfl, hNow, hTick, _⟩ := h
  exact ⟨hCall.1, _, _, _, rfl, hNow, hTick, hCall.2⟩

theorem deviceFatalIf {c c' : Bool} (f : Fatal) (hSame : c = c') (h : SameButTime fits R d d') :
    Prog.Lockstep (SameButTime fits R) (NPUDevice.deviceFatalIf c f) d
      (NPUDevice.deviceFatalIf c' f) d' := by
  subst hSame
  refine onBackend ?_ h
  cases c with
  | true => exact ⟨rfl, h.backend⟩
  | false => exact ⟨rfl, h.backend⟩

section Params

variable (hParams : SameButBatch p p')
include hParams

theorem functionalMemoryRange (command : MemCmd) (addr size start : Nat) (buffer : ByteMem)
    (h : SameButTime fits R d d') :
    Prog.Lockstep (SameButTime fits R) (functionalMemoryRange p command addr size start buffer) d
      (functionalMemoryRange p' command addr size start buffer) d' := by
  obtain ⟨batch, rfl⟩ := hParams
  have hAccess : ∀ addr size start buffer (d d' : NPUDevice B), SameButTime fits R d d' →
      Prog.Lockstep (SameButTime fits R) (functionalMemoryAccess command addr size start buffer) d
        (functionalMemoryAccess command addr size start buffer) d' := by
    rintro addr size start buffer d _ ⟨b, tick, event, rfl, hNow, hTick, hBackend⟩
    cases command with
    | readReq => exact ⟨rfl, _, _, _, rfl, hNow, hTick, hBackend⟩
    | writeReq => exact ⟨rfl, _, _, _, rfl, hNow, hTick, hBackend⟩
  have hLoop : ∀ fuel completed buffer (d d' : NPUDevice B), SameButTime fits R d d' →
      Prog.Lockstep (SameButTime fits R)
        (functionalMemoryLoop p command addr size start fuel completed buffer) d
        (functionalMemoryLoop { p with fastDmaEventBatch := batch } command addr size start fuel
          completed buffer) d' := by
    intro fuel
    induction fuel with
    | zero => exact fun _ _ _ _ h => .pure _ h
    | succ fuel ih =>
      intro completed buffer d d' h
      exact .ite Iff.rfl (.bind (hAccess _ _ _ _ d d' h) fun _ _ _ hNext => ih _ _ _ _ hNext)
        (.pure _ h)
  exact .bind (deviceFatalIf _ rfl h) fun _ _ _ hNext => hLoop _ _ _ _ _ hNext

theorem fillPage (page : Nat) (h : SameButTime fits R d d') :
    Prog.Lockstep (SameButTime fits R) (fillPage p page) d (fillPage p' page) d' := by
  have hRange := @functionalMemoryRange _ fits R p p' d d' hParams
  obtain ⟨batch, rfl⟩ := hParams
  obtain ⟨b, tick, event, rfl, hNow, hTick, hBackend⟩ := id h
  refine .get_bind (.ite Iff.rfl (.bind (hRange _ _ _ _ _ h) ?_) (.pure _ h))
  rintro cache d _ ⟨b, tick, event, rfl, hNow, hTick, hBackend⟩
  exact .modify ⟨_, _, _, rfl, hNow, hTick, hBackend⟩

theorem flushFastDmaCache (h : SameButTime fits R d d') :
    Prog.Lockstep (SameButTime fits R) (flushFastDmaCache p) d (flushFastDmaCache p') d' := by
  have hRange := fun d d' => @functionalMemoryRange _ fits R p p' d d' hParams
  obtain ⟨batch, rfl⟩ := hParams
  refine .loop h fun page _ d d' h => ?_
  obtain ⟨b, tick, event, rfl, hNow, hTick, hBackend⟩ := id h
  refine .get_bind (.ite Iff.rfl (.bind (hRange _ _ _ _ _ _ _ h) ?_) (.pure _ h))
  rintro _ d _ ⟨b, tick, event, rfl, hNow, hTick, hBackend⟩
  exact .modify ⟨_, _, _, rfl, hNow, hTick, hBackend⟩

theorem fastDmaAccess (request : CoralDmaRequest) (hostAddr : Nat) (data : ByteMem)
    (h : SameButTime fits R d d') :
    Prog.Lockstep (SameButTime fits R) (fastDmaAccess p request hostAddr data) d
      (fastDmaAccess p' request hostAddr data) d' := by
  have hFill := fun d d' => @fillPage _ fits R p p' d d' hParams
  obtain ⟨batch, rfl⟩ := hParams
  refine .bind (deviceFatalIf _ rfl h) fun _ _ _ h => .bind (hFill _ _ _ h) ?_
  rintro _ d _ ⟨b, tick, event, rfl, hNow, hTick, hBackend⟩
  cases request.type with
  | read => exact .get_bind (.pure _ ⟨_, _, _, rfl, hNow, hTick, hBackend⟩)
  | write =>
    exact .bind (.modify ⟨_, _, _, rfl, hNow, hTick, hBackend⟩) fun _ _ _ hNext => .pure _ hNext

end Params

section Backends

variable (hBackends : Together fits R be be')
include hBackends

theorem settle (h : SameButTime fits R d d') :
    Prog.Lockstep (SameButTime fits R) (syncBackendEvent be >>= fun _ => checkDrainDone be) d
      (syncBackendEvent be' >>= fun _ => checkDrainDone be') d' := by
  obtain ⟨b, tick, event, rfl, hNow, hTick, hBackend⟩ := h
  refine .bind (.modify ⟨_, _, _, rfl, hNow, hTick, hBackend⟩) ?_
  rintro _ d _ ⟨b, tick, event, rfl, hNow, hTick, hBackend⟩
  refine .get_bind (.ite ?_ ?_ (.pure _ ⟨_, _, _, rfl, hNow, hTick, hBackend⟩))
  · simp only [dmaQuiesced, hBackends.hasPendingEvent hBackend, hBackends.hasDmaRequest hBackend]
  · refine .bind (.emit _ _ ⟨_, _, _, rfl, hNow, hTick, hBackend⟩) ?_
    rintro _ d _ ⟨b, tick, event, rfl, hNow, hTick, hBackend⟩
    exact .modify ⟨_, _, _, rfl, hNow, hTick, hBackend⟩

theorem completeBackendDma (data : ByteMem) (h : SameButTime fits R d d') :
    Prog.Lockstep (SameButTime fits R) (completeBackendDma be data) d
      (completeBackendDma be' data) d' := by
  obtain ⟨b, tick, event, rfl, hNow, hTick, hBackend⟩ := id h
  refine .get_bind (.bind (deviceFatalIf _ rfl h) fun _ d d' h => ?_)
  refine .bind (onBackend (hBackends.dmaRequest h.backend) h) ?_
  rintro request d _ ⟨b, tick, event, rfl, hNow, hTick, hBackend⟩
  refine .bind (.modify ⟨_, _, _, rfl, hNow, hTick, hBackend⟩) fun _ d d' h => .get_bind ?_
  refine .bind (onBackend (hBackends.completeDma _ _ _ _ _ h.fits_left h.fits_right h.backend) h) ?_
  rintro _ d _ ⟨b, tick, event, rfl, hNow, hTick, hBackend⟩
  refine .bind (.modify ⟨_, _, _, rfl, hNow, hTick, hBackend⟩) fun _ d d' h => .get_bind ?_
  exact .bind (deviceFatalIf _ (hBackends.hasDmaRequest h.backend) h)
    fun _ _ _ h => settle hBackends h

theorem completeBackendDmaError (h : SameButTime fits R d d') :
    Prog.Lockstep (SameButTime fits R) (completeBackendDmaError be) d
      (completeBackendDmaError be') d' := by
  obtain ⟨b, tick, event, rfl, hNow, hTick, hBackend⟩ := id h
  refine .get_bind (.bind (deviceFatalIf _ rfl h) fun _ d d' h => .get_bind ?_)
  refine .bind (deviceFatalIf _ (by rw [hBackends.hasDmaRequest h.backend]) h) fun _ d d' h => ?_
  refine .get_bind (.bind (onBackend (hBackends.completeDma _ _ _ _ _ h.fits_left h.fits_right
    h.backend) h) ?_)
  rintro _ d _ ⟨b, tick, event, rfl, hNow, hTick, hBackend⟩
  refine .bind (.modify ⟨_, _, _, rfl, hNow, hTick, hBackend⟩) fun _ d d' h => .get_bind ?_
  exact .bind (deviceFatalIf _ (hBackends.hasDmaRequest h.backend) h)
    fun _ _ _ h => settle hBackends h

variable (hParams : SameButBatch p p')
include hParams

theorem submitDma (request : CoralDmaRequest) (h : SameButTime fits R d d') :
    Prog.Lockstep (SameButTime fits R) (submitDma be p request) d
      (submitDma be' p' request) d' := by
  have hAccess := fun d d' => @fastDmaAccess _ fits R p p' d d' hParams
  obtain ⟨batch, rfl⟩ := hParams
  obtain ⟨b, tick, event, rfl, hNow, hTick, hBackend⟩ := h
  refine .bind (.modify ⟨_, _, _, rfl, hNow, hTick, hBackend⟩) fun _ d d' h => .ite Iff.rfl ?_ ?_
  · exact .bind (hAccess _ _ _ _ _ h) fun _ _ _ h => completeBackendDma hBackends _ h
  · refine .bind (.emit _ _ h) ?_
    rintro _ d _ ⟨b, tick, event, rfl, hNow, hTick, hBackend⟩
    exact .modify ⟨_, _, _, rfl, hNow, hTick, hBackend⟩

theorem startBackendDma (h : SameButTime fits R d d') :
    Prog.Lockstep (SameButTime fits R) (startBackendDma be p) d (startBackendDma be' p') d' := by
  have hSubmit := fun d d' => @submitDma _ fits R be be' p p' d d' hBackends hParams
  obtain ⟨batch, rfl⟩ := hParams
  refine .get_bind (.ite ?_ ?_ (.pure _ h))
  · obtain ⟨b, tick, event, rfl, hNow, hTick, hBackend⟩ := h
    rw [hBackends.hasDmaRequest hBackend]
  · refine .bind (onBackend (hBackends.dmaRequest h.backend) h) fun request d d' h => ?_
    exact .ite Iff.rfl (hSubmit _ _ request h)
      (.bind (.emit _ _ h) fun _ _ _ h => completeBackendDmaError hBackends h)

theorem publish (h : SameButTime fits R d d') :
    Prog.Lockstep (SameButTime fits R) (publish be p) d (publish be' p') d' := by
  have hRange := fun d d' => @functionalMemoryRange _ fits R p p' d d' hParams
  have hFlush := @flushFastDmaCache _ fits R p p' d d' hParams h
  obtain ⟨batch, rfl⟩ := hParams
  refine .get_bind (.ite ?_ (.ite ?_ ?_ hFlush) (.pure _ h))
  · rw [hBackends.hasPendingEvent h.backend, hBackends.hasDmaRequest h.backend]
  · rw [hBackends.hasLocalExtmem h.backend]
  · refine .bind (onBackend (hBackends.readLocalExtmem _ _ h.backend) h) fun data d d' h => ?_
    refine .bind (hRange _ _ _ _ _ _ _ h) ?_
    rintro _ d _ ⟨b, tick, event, rfl, hNow, hTick, hBackend⟩
    exact .modify ⟨_, _, _, rfl, hNow, hTick, hBackend⟩

end Backends

end SameButTime
end OpenNpux.Device.NPUDevice
