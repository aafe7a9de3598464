import OpenNpux.Device.NPUDevice
import OpenNpux.Lib.Run

/-!
# Entry points of the device

gem5 calls the device at its entry points, and time passes between the calls. A scheduled
event fires at its tick and nothing happens after that tick before it; a DMA callback
comes once for a submitted request. A run is a list of calls.
-/

namespace OpenNpux.Device.NPUDevice

open Lib Bridge

inductive Entry
  | read (addr size : Nat)
  | write (addr size : Nat) (data : ByteMem)
  | backendEvent
  | dmaCallback (data : ByteMem)
  | drain
  | resume
  | hostStore (addr size : Nat) (data : ByteMem)

/-- An entry point, and the time that passes before it is called. -/
structure Call where
  delay : Nat
  entry : Entry

section Calls

variable {B : Type} (be : CoralBackend B) (p : NPUDeviceParams)

/-- gem5 takes a due event off its queue, and a finished DMA from its port, before it calls
the device. -/
def enter : Entry → Prog (NPUDevice B) DeviceEvent Unit
  | .read addr size => do
    let _ ← read be p addr size
  | .write addr size data => do
    let _ ← write be p addr size data
  | .backendEvent => do
    Prog.modify fun d => { d with backendEvent := none }
    processBackendEvent be p
  | .dmaCallback data => do
    Prog.modify fun d => { d with inFlight := false }
    completeBackendDma be data
  | .drain => drain be
  | .resume => Prog.modify fun d => { d with drainState := .running }
  | .hostStore addr size data =>
    Prog.modify fun d => { d with memory := d.memory.store addr size data }

def call (c : Call) : Prog (NPUDevice B) DeviceEvent Unit := do
  Prog.modify fun d => { d with curTick := d.curTick + c.delay }
  enter be p c.entry

def calls : List Call → Prog (NPUDevice B) DeviceEvent Unit
  | [] => pure ()
  | c :: cs => do
    call be p c
    calls cs

/-- When gem5 can make the call: a scheduled event is neither early nor overtaken. -/
def Enabled (d : NPUDevice B) (c : Call) : Prop :=
  match c.entry with
  | .backendEvent => d.backendEvent = some (d.curTick + c.delay)
  | .dmaCallback _ => d.inFlight = true ∧ ∀ due ∈ d.backendEvent, d.curTick + c.delay ≤ due
  | .resume => d.drainState = .drained ∧ ∀ due ∈ d.backendEvent, d.curTick + c.delay ≤ due
  | _ => ∀ due ∈ d.backendEvent, d.curTick + c.delay ≤ due

instance (d : NPUDevice B) (c : Call) : Decidable (d.Enabled c) :=
  match c with
  | ⟨delay, .backendEvent⟩ => decEq d.backendEvent (some (d.curTick + delay))
  | ⟨delay, .dmaCallback _⟩ => inferInstanceAs (Decidable
      (d.inFlight = true ∧ ∀ due ∈ d.backendEvent, d.curTick + delay ≤ due))
  | ⟨delay, .resume⟩ => inferInstanceAs (Decidable
      (d.drainState = .drained ∧ ∀ due ∈ d.backendEvent, d.curTick + delay ≤ due))
  | ⟨delay, .read ..⟩ | ⟨delay, .write ..⟩ | ⟨delay, .drain⟩ | ⟨delay, .hostStore ..⟩ =>
    inferInstanceAs (Decidable (∀ due ∈ d.backendEvent, d.curTick + delay ≤ due))

/-- A call that gem5 can make and that returns. -/
def Legal (d : NPUDevice B) (c : Call) : Prop :=
  d.Enabled c ∧ (call be p c d).result = some ()

instance (d : NPUDevice B) (c : Call) : Decidable (d.Legal be p c) :=
  inferInstanceAs (Decidable (d.Enabled c ∧ (call be p c d).result = some ()))

def next (d : NPUDevice B) (c : Call) : NPUDevice B := (call be p c d).state

end Calls

end OpenNpux.Device.NPUDevice
