import Mathlib.Data.Fintype.Basic
import OpenNpux.Lib.Run

/-!
# The kernel driver of the NPU

The driver's operations as threads that interleave: each atomic operation, each register
access and each call on the delayed work is one step, and what follows up to the next
one belongs to it. The mutex is held by one thread; the cancellation of the work waits
for a worker that is executing. The device executes on its own, and what `STATUS` shows
while it is held in reset is left open.
-/

namespace OpenNpux.Driver

open Lib

structure Status where
  halted : Bool := false
  fault : Bool := false
deriving DecidableEq

def Status.ended (s : Status) : Bool := s.halted || s.fault

structure Npu where
  pcStart : Nat := 0
  inReset : Bool := false
  executing : Bool := false
  status : Status := {}

namespace Npu

/-- A write of `RESET_CONTROL`; `held` is what `STATUS` shows in reset. -/
def writeResetControl (held : Status → Status) (value : Nat) (d : Npu) : Npu :=
  if value % 2 = 1 then
    { d with inReset := true, executing := false, status := held d.status }
  else if d.inReset then { d with inReset := false, executing := true, status := {} }
  else d

def stop (status : Status) (d : Npu) : Npu := { d with executing := false, status }

end Npu

def ebusy : Int := -16
def eio : Int := -5
def einval : Int := -22
def etimedout : Int := -110
def pollIn : Int := 0x41
def pollErr : Int := 0x8

inductive Operation
  | open
  | start (flags entry : Nat)
  | run (entry polls : Nat)
  | reset
  | poll
  | release
deriving DecidableEq

/-- Where a thread stands in the driver: the step that it takes next. -/
inductive Task
  | returned (code : Int)
  | startLock (entry : Nat)
  | startCheck (entry : Nat)
  | startCancel (entry : Nat)
  | startSet (entry : Nat)
  | startPc (entry : Nat)
  | startHold
  | startRelease
  | startSchedule
  | resetLock (closing : Bool)
  | resetClear (closing : Bool)
  | resetCancel (closing : Bool)
  | resetHold (closing : Bool)
  | runCheck (entry polls : Nat)
  | runPc (entry polls : Nat)
  | runHold (polls : Nat)
  | runRelease (polls : Nat)
  | runPoll (more : Nat)
  | runClear (status : Status)
  | pollRead
  | pollClear (status : Status)
  | openCheck
  | releaseCheck
  | releaseClose
deriving DecidableEq

inductive Worker
  | idle
  | check
  | read
  | clear
  | recheck
deriving DecidableEq

structure State (n : Nat) where
  running : Bool := false
  openCount : Bool := false
  stateLock : Option (Fin n) := none
  workQueued : Bool := false
  worker : Worker := .idle
  tasks : Fin n → Task := fun _ => .returned 0
  device : Npu := {}

def Task.quiet : Task → Bool
  | .returned _ => true
  | _ => false

def Task.closing : Task → Bool
  | .releaseCheck | .releaseClose => true
  | .resetLock c | .resetClear c | .resetCancel c | .resetHold c => c
  | _ => false

namespace State

def probed (n : Nat) (device : Npu) : State n := { device }

variable {n : Nat} (held : Status → Status)

def goto (s : State n) (t : Fin n) (task : Task) : State n :=
  { s with tasks := Function.update s.tasks t task }

theorem goto_self (s : State n) (t : Fin n) (task : Task) : (s.goto t task).tasks t = task :=
  Function.update_self ..

theorem goto_of_ne {s s' : State n} {t u : Fin n} (hTasks : s'.tasks = s.tasks) (task : Task)
    (hu : u ≠ t) :
    (s'.goto t task).tasks u = s.tasks u := by
  rw [← hTasks]
  exact Function.update_of_ne hu _ _

/-- What the call of an operation does up to its first step. -/
def enter : Operation → Task
  | .open => .openCheck
  | .start flags entry => if flags = 0 then .startLock entry else .returned einval
  | .run entry polls => .runCheck entry polls
  | .reset => .resetLock false
  | .poll => .pollRead
  | .release => .releaseCheck

def afterPoll (status : Status) : Nat → Task
  | 0 => .runClear status
  | more + 1 => if status.ended then .runClear status else .runPoll more

def runResult (status : Status) : Int :=
  if status.fault then eio else if status.halted then 0 else etimedout

def pollResult (status : Status) : Int := if status.fault then pollErr else pollIn

def writeResetControl (value : Nat) (s : State n) : State n :=
  { s with device := s.device.writeResetControl held value }

def stepTask (t : Fin n) (s : State n) : State n :=
  match s.tasks t with
  | .returned _ => s
  | .startLock entry => { s with stateLock := some t }.goto t (.startCheck entry)
  | .startCheck entry =>
    if s.running then { s with stateLock := none }.goto t (.returned ebusy)
    else s.goto t (.startCancel entry)
  | .startCancel entry => { s with workQueued := false }.goto t (.startSet entry)
  | .startSet entry => { s with running := true }.goto t (.startPc entry)
  | .startPc entry => { s with device := { s.device with pcStart := entry } }.goto t .startHold
  | .startHold => (s.writeResetControl held 1).goto t .startRelease
  | .startRelease => (s.writeResetControl held 0).goto t .startSchedule
  | .startSchedule => { s with workQueued := true, stateLock := none }.goto t (.returned 0)
  | .resetLock c => { s with stateLock := some t }.goto t (.resetClear c)
  | .resetClear c => { s with running := false }.goto t (.resetCancel c)
  | .resetCancel c => { s with workQueued := false }.goto t (.resetHold c)
  | .resetHold c =>
    { s.writeResetControl held 1 with stateLock := none }.goto t
      (if c then .releaseClose else .returned 0)
  | .runCheck entry polls =>
    if s.running then s.goto t (.returned ebusy)
    else { s with running := true }.goto t (.runPc entry polls)
  | .runPc entry polls =>
    { s with device := { s.device with pcStart := entry } }.goto t (.runHold polls)
  | .runHold polls => (s.writeResetControl held 1).goto t (.runRelease polls)
  | .runRelease polls =>
    (s.writeResetControl held 0).goto t
      (match polls with
        | 0 => .runClear {}
        | more + 1 => .runPoll more)
  | .runPoll more => s.goto t (afterPoll s.device.status more)
  | .runClear status => { s with running := false }.goto t (.returned (runResult status))
  | .pollRead =>
    s.goto t (if s.device.status.ended then .pollClear s.device.status else .returned 0)
  | .pollClear status => { s with running := false }.goto t (.returned (pollResult status))
  | .openCheck =>
    if s.openCount then s.goto t (.returned ebusy)
    else { s with openCount := true }.goto t (.returned 0)
  | .releaseCheck => s.goto t (if s.running then .resetLock true else .releaseClose)
  | .releaseClose => { s with openCount := false }.goto t (.returned 0)

def stepWorker (s : State n) : State n :=
  match s.worker with
  | .idle => s
  | .check => { s with worker := if s.running then .read else .idle }
  | .read => { s with worker := if s.device.status.ended then .clear else .recheck }
  | .clear => { s with running := false, worker := .idle }
  | .recheck => { s with workQueued := s.workQueued || s.running, worker := .idle }

end State

inductive Move (n : Nat)
  | call (t : Fin n) (op : Operation)
  | thread (t : Fin n)
  | dequeue
  | worker
  | deviceEnds (status : Status)

namespace State

variable {n : Nat} (held : Status → Status)

def step (s : State n) : Move n → State n
  | .call t op => s.goto t (enter op)
  | .thread t => s.stepTask held t
  | .dequeue => { s with workQueued := false, worker := .check }
  | .worker => s.stepWorker
  | .deviceEnds status => { s with device := s.device.stop status }

/-- Whether a call of an operation can come: on an open file, and a release only last. -/
def CanCall (s : State n) : Operation → Prop
  | .open => True
  | .release => s.openCount = true ∧ ∀ u, (s.tasks u).quiet = true
  | _ => s.openCount = true ∧ ∀ u, (s.tasks u).closing = false

instance (s : State n) : (op : Operation) → Decidable (s.CanCall op)
  | .open => inferInstanceAs (Decidable True)
  | .release => inferInstanceAs (Decidable (s.openCount = true ∧ ∀ u, (s.tasks u).quiet = true))
  | .start .. | .run .. | .reset | .poll =>
    inferInstanceAs (Decidable (s.openCount = true ∧ ∀ u, (s.tasks u).closing = false))

def ready (s : State n) : Task → Bool
  | .returned _ => false
  | .startLock _ | .resetLock _ => s.stateLock.isNone
  | .startCancel _ | .resetCancel _ => s.worker == .idle
  | _ => true

def Enabled (s : State n) : Move n → Prop
  | .call t op => (s.tasks t).quiet = true ∧ s.CanCall op
  | .thread t => s.ready (s.tasks t) = true
  | .dequeue => s.workQueued = true ∧ s.worker = .idle
  | .worker => s.worker ≠ .idle
  | .deviceEnds status => s.device.executing = true ∧ status.ended = true

instance (s : State n) : (move : Move n) → Decidable (s.Enabled move)
  | .call t op => inferInstanceAs (Decidable ((s.tasks t).quiet = true ∧ s.CanCall op))
  | .thread t => inferInstanceAs (Decidable (s.ready (s.tasks t) = true))
  | .dequeue => inferInstanceAs (Decidable (s.workQueued = true ∧ s.worker = .idle))
  | .worker => inferInstanceAs (Decidable (s.worker ≠ .idle))
  | .deviceEnds status =>
    inferInstanceAs (Decidable (s.device.executing = true ∧ status.ended = true))

end State
end OpenNpux.Driver
