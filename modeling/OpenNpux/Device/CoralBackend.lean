import OpenNpux.Bridge.RequestBuilder

/-!
# The backend interface of the NPU device

The device shell delegates execution to a backend. A backend call runs on the backend's
own state; a `fatal` or `panic` of the source is a rejected program that has emitted its
reason. Packets keep their data as bytes from index zero. Calls that read `curTick()`
take it as their first argument, and a sum of ticks wraps at 64 bits.
-/

namespace OpenNpux.Device

open Lib Bridge

inductive Fatal
  | completionWithoutActive | retainedAfterCompletion | errorWhileActive | errorWithoutRequest
  | retainedAfterError | crossesPage | zeroBlockSize | serializeInFlight
  | unsupported
  | noDmaRequest | completionWithoutRequest | completionRejected
  | cycleCounterBackwards | delayOverflow | stepFailed | coreFault | waitWithoutRequest | dmaSize
  | localExtmem
deriving DecidableEq

/-- The fatal errors of the DMA protocol between the device and its backend. -/
def Fatal.isDmaProtocol : Fatal → Bool
  | .completionWithoutActive | .retainedAfterCompletion | .errorWhileActive | .errorWithoutRequest
  | .retainedAfterError | .noDmaRequest | .completionWithoutRequest => true
  | _ => false

/-- The 64-bit sum of a tick and a delay. Both backends read zero as no event. -/
def tickAfter (now delay : Nat) : Nat := (now + delay) % 2 ^ 64

theorem tickAfter_eq {now delay : Nat} (h : now + delay < 2 ^ 64) :
    tickAfter now delay = now + delay :=
  Nat.mod_eq_of_lt h

theorem tickAfter_ne_zero {now delay : Nat} (hDelay : delay ≠ 0) (h : now + delay < 2 ^ 64) :
    tickAfter now delay ≠ 0 := by
  rw [tickAfter_eq h]
  omega

structure CoralDmaRequest where
  type : DmaType := .read
  addr : Nat := 0
  size : Nat := 0
  data : ByteMem := fun _ => 0

/-- The virtual functions of the source's class, on a backend state `B`. A read returns the
packet's data, and a `false` of the source is `none`. -/
structure CoralBackend (B : Type) where
  read : Nat → Nat → Prog B Fatal (Option ByteMem)
  write : Nat → Nat → Nat → ByteMem → Prog B Fatal Bool
  hasPendingEvent : B → Bool
  nextEventTick : B → Nat
  processEvent : Nat → Prog B Fatal Unit
  hasDmaRequest : B → Bool
  dmaRequest : Prog B Fatal CoralDmaRequest
  completeDma : Nat → Option ByteMem → Nat → Bool → Prog B Fatal Unit
  hasLocalExtmem : B → Bool
  readLocalExtmem : Nat → Nat → Prog B Fatal ByteMem
  writeLocalExtmem : Nat → Nat → ByteMem → Prog B Fatal Unit

section Fatal

variable {σ α : Type}

def fatal (f : Fatal) : Prog σ Fatal α := fun s => ⟨none, s, [f]⟩

def fatalIf (c : Bool) (f : Fatal) : Prog σ Fatal Unit := if c then fatal f else pure ()

theorem ensures_fatal {ok : Fatal → Prop} {s : σ} {post : α → σ → Prop} {f : Fatal} (hf : ok f) :
    Prog.Ensures ok (fatal f) s post := by
  constructor
  · intro f' hf'
    rw [List.mem_singleton.mp hf']
    exact hf
  · intro a ha
    cases ha

theorem fatalIf_bind_ensures {ok : Fatal → Prop} {c : Bool} {f : Fatal} {k : Unit → Prog σ Fatal α}
    {s : σ} {post : α → σ → Prop} (hFatal : c = true → ok f)
    (hRest : c = false → Prog.Ensures ok (k ()) s post) :
    Prog.Ensures ok (fatalIf c f >>= k) s post := by
  cases c with
  | true => exact .bind (Q := fun _ _ => False) (ensures_fatal (hFatal rfl)) fun _ _ h => h.elim
  | false => exact hRest rfl

end Fatal
end OpenNpux.Device
