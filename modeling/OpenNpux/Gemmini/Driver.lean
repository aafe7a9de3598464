import Mathlib.Data.Fintype.Basic
import OpenNpux.Gemmini.Device
import OpenNpux.Lib.Run

/-!
# The driver of the accelerator

The one operation of the driver, as threads that interleave with each other and with the
device. Each statement that allocates, copies, accesses a register or frees is a step, with
the answer of the kernel as an input; the mutex is held by one thread. The wait reads the
status and then looks at the clock, and the device goes on in between. A step at which the
device has no next state ends the simulation.
-/

namespace OpenNpux.Gemmini

open Lib

def enotty : Int := -25
def efault : Int := -14
def einval : Int := -22
def enomem : Int := -12
def etimedout : Int := -110

def iocRun : Nat := 0xc0284700

structure DmaBuffer where
  addr : Nat
  size : Nat
deriving DecidableEq

/-- The local variables of the operation; a buffer is missing until it is allocated and after
it is freed. -/
structure Call where
  req : Request
  sizes : Sizes
  mDma : Option Nat := none
  kDma : Option Nat := none
  oDma : Option Nat := none
  ret : Int := 0

/-- Where a thread stands in the operation: the step that it takes next. -/
inductive Task
  | returned (code : Int)
  | lock (call : Call)
  | allocM (call : Call)
  | allocK (call : Call)
  | allocO (call : Call)
  | copyM (call : Call)
  | copyK (call : Call)
  | writeReg (call : Call) (ridx : Nat)
  | readStatus (call : Call)
  | checkTime (call : Call)
  | copyOut (call : Call)
  | freeO (call : Call)
  | freeK (call : Call)
  | freeM (call : Call)
  | unlock (call : Call)

def Task.quiet : Task → Bool
  | .returned _ => true
  | _ => false

/-- What the kernel answers in a step: the address of an allocation, whether a copy from or to
user space is complete, and whether the time is up. -/
structure Answer where
  address : Option Nat := none
  copied : Bool := true
  expired : Bool := false

structure State (n : Nat) where
  lock : Option (Fin n) := none
  tasks : Fin n → Task := fun _ => .returned 0
  /-- The coherent buffers that are allocated. -/
  live : List DmaBuffer := []
  device : GemminiDevA := {}
  panicked : Bool := false

section Steps

variable (sizeMax : Nat)

/-- The operation up to the mutex; the request is missing if it cannot be copied. -/
def enter (cmd : Nat) (request : Option Request) : Task :=
  if cmd ≠ iocRun then .returned enotty
  else
    match request with
    | none => .returned efault
    | some req =>
      match calcSizes sizeMax req with
      | none => .returned einval
      | some sizes =>
        if req.mUser = 0 ∨ req.oUser = 0 then .returned einval
        else if sizes.k ≠ 0 ∧ req.kUser = 0 then .returned einval
        else .lock { req, sizes }

def Call.operands (call : Call) : Operands :=
  ⟨call.mDma.getD 0, call.kDma.getD 0, call.oDma.getD 0⟩

namespace State

variable {n : Nat}

def goto (s : State n) (t : Fin n) (task : Task) : State n :=
  { s with tasks := Function.update s.tasks t task }

def fail (s : State n) (t : Fin n) (call : Call) (code : Int) : State n :=
  s.goto t (.freeO { call with ret := code })

def allocate (s : State n) (addr size : Nat) : State n :=
    { s with live := s.live ++ [⟨addr, size⟩] }

def free (s : State n) (addr : Option Nat) (size : Nat) : State n :=
  match addr with
  | none => s
  | some addr => { s with live := s.live.erase ⟨addr, size⟩ }

def device? (s : State n) (next : Option GemminiDevA) : State n :=
  match next with
  | none => { s with panicked := true }
  | some device => { s with device }

def stepTask (t : Fin n) (answer : Answer) (s : State n) : State n :=
  match s.tasks t with
  | .returned _ => s
  | .lock call => { s with lock := some t }.goto t (.allocM call)
  | .allocM call =>
    match answer.address with
    | none => s.fail t call enomem
    | some addr =>
      (s.allocate addr call.sizes.m).goto t
        (if call.sizes.k ≠ 0 then .allocK { call with mDma := some addr }
          else .allocO { call with mDma := some addr })
  | .allocK call =>
    match answer.address with
    | none => s.fail t call enomem
    | some addr =>
      (s.allocate addr call.sizes.k).goto t (.allocO { call with kDma := some addr })
  | .allocO call =>
    match answer.address with
    | none => s.fail t call enomem
    | some addr =>
      (s.allocate addr call.sizes.o).goto t (.copyM { call with oDma := some addr })
  | .copyM call =>
    if answer.copied then
      s.goto t (if call.sizes.k ≠ 0 then .copyK call else .writeReg call 0)
    else s.fail t call efault
  | .copyK call => if answer.copied then s.goto t (.writeReg call 0) else s.fail t call efault
  | .writeReg call ridx =>
    (s.device? (s.device.writePI ridx
      (registerValue call.req call.sizes call.operands ridx))).goto t
        (if ridx = 6 then .readStatus call else .writeReg call (ridx + 1))
  | .readStatus call =>
    s.goto t (if s.device.piStatus ≠ 0 then .copyOut call else .checkTime call)
  | .checkTime call => if answer.expired then s.fail t call etimedout else s.goto t
      (.readStatus call)
  | .copyOut call =>
    s.goto t (.freeO { call with ret := if answer.copied then 0 else efault })
  | .freeO call => (s.free call.oDma call.sizes.o).goto t (.freeK { call with oDma := none })
  | .freeK call => (s.free call.kDma call.sizes.k).goto t (.freeM { call with kDma := none })
  | .freeM call => (s.free call.mDma call.sizes.m).goto t (.unlock { call with mDma := none })
  | .unlock call => { s with lock := none }.goto t (.returned call.ret)

end State

inductive Move (n : Nat)
  | ioctl (t : Fin n) (cmd : Nat) (request : Option Request)
  | thread (t : Fin n) (answer : Answer)
  | transferEnds (index : Nat)

namespace State

variable {n : Nat}

def step (s : State n) : Move n → State n
  | .ioctl t cmd request => s.goto t (enter sizeMax cmd request)
  | .thread t answer => s.stepTask t answer
  | .transferEnds index => s.device? (s.device.complete index)

def ready (s : State n) : Task → Bool
  | .returned _ => false
  | .lock _ => s.lock.isNone
  | _ => true

/-- What can happen: nothing after a panic. -/
def Enabled (s : State n) : Move n → Prop
  | .ioctl t _ _ => s.panicked = false ∧ (s.tasks t).quiet = true
  | .thread t _ => s.panicked = false ∧ s.ready (s.tasks t) = true
  | .transferEnds index => s.panicked = false ∧ index < s.device.outstanding.length

instance (s : State n) : (move : Move n) → Decidable (s.Enabled move)
  | .ioctl t _ _ => inferInstanceAs (Decidable (s.panicked = false ∧ (s.tasks t).quiet = true))
  | .thread t _ => inferInstanceAs (Decidable (s.panicked = false ∧ s.ready (s.tasks t) = true))
  | .transferEnds index =>
    inferInstanceAs (Decidable (s.panicked = false ∧ index < s.device.outstanding.length))

end State
end Steps
end OpenNpux.Gemmini
