import Mathlib.Algebra.Order.BigOperators.Group.Finset
import Mathlib.Data.Fintype.BigOperators
import OpenNpux.Driver.Mutex

/-!
# Every call returns

The cancellation of the work waits for the worker inside the mutex, and the worker never
takes the mutex. So a thread that cannot go on waits for the holder of the mutex, and the
holder waits at most for the worker to come to its end: in every reachable state all calls
can return without a further step of the device. How many steps the threads take until
then does not depend on the interleaving.
-/

namespace OpenNpux.Driver

open Lib

/-! ## Steps left -/

def Task.work : Task → Nat
  | .returned _ => 0
  | .startLock _ => 8
  | .startCheck _ => 7
  | .startCancel _ => 6
  | .startSet _ => 5
  | .startPc _ => 4
  | .startHold => 3
  | .startRelease => 2
  | .startSchedule => 1
  | .resetLock closing => 4 + closing.toNat
  | .resetClear closing => 3 + closing.toNat
  | .resetCancel closing => 2 + closing.toNat
  | .resetHold closing => 1 + closing.toNat
  | .runCheck _ polls => polls + 5
  | .runPc _ polls => polls + 4
  | .runHold polls => polls + 3
  | .runRelease polls => polls + 2
  | .runPoll more => more + 2
  | .runClear _ => 1
  | .pollRead => 2
  | .pollClear _ => 1
  | .openCheck => 1
  | .releaseCheck => 6
  | .releaseClose => 1

def Worker.work : Worker → Nat
  | .idle => 0
  | .clear | .recheck => 1
  | .read => 2
  | .check => 3

/-- The steps of the kernel's own threads. -/
def Move.internal {n : Nat} : Move n → Bool
  | .thread _ | .worker => true
  | .call .. | .dequeue | .deviceEnds _ => false

def Move.isThread {n : Nat} : Move n → Bool
  | .thread _ => true
  | _ => false

def Move.isCall {n : Nat} : Move n → Bool
  | .call .. => true
  | _ => false

theorem Task.work_eq_zero {task : Task} (h : task.work = 0) : task.quiet = true := by
  cases task with
  | returned code => rfl
  | resetLock closing | resetClear closing | resetCancel closing | resetHold closing =>
    cases closing <;> cases h
  | _ => cases h

namespace State

variable {n : Nat} {held : Status → Status} {s : State n} {t : Fin n}

def work (s : State n) : Nat := ∑ t, (s.tasks t).work

theorem quiet_of_work_eq_zero (h : s.work = 0) (t : Fin n) : (s.tasks t).quiet = true :=
  Task.work_eq_zero (Finset.sum_eq_zero_iff.1 h t (Finset.mem_univ t))

theorem work_goto {s' : State n} {task : Task} (hTasks : s'.tasks = s.tasks)
    (hLess : task.work < (s.tasks t).work) : (s'.goto t task).work < s.work := by
  apply Finset.sum_lt_sum
  · intro u _
    by_cases hu : u = t
    · subst hu
      rw [goto_self]
      exact hLess.le
    · rw [goto_of_ne hTasks task hu]
  · exact ⟨t, Finset.mem_univ t, by rwa [goto_self]⟩

theorem stepTask_work (hReady : s.ready (s.tasks t) = true) :
    (s.stepTask held t).work < s.work := by
  unfold stepTask
  cases hTask : s.tasks t with
  | returned code =>
    rw [hTask] at hReady
    cases hReady
  | startCheck entry | runCheck entry polls =>
    dsimp only
    split
    · exact work_goto rfl (by rw [hTask, Task.work, Task.work]; omega)
    · exact work_goto rfl (by rw [hTask, Task.work, Task.work]; omega)
  | runRelease polls =>
    cases polls <;> exact work_goto rfl (by rw [hTask, Task.work, Task.work]; omega)
  | runPoll more =>
    refine work_goto rfl ?_
    rw [hTask]
    cases more with
    | zero => exact Nat.lt_succ_self 1
    | succ more =>
      rw [afterPoll]
      split
      · rw [Task.work, Task.work]
        omega
      · rw [Task.work, Task.work]
        omega
  | pollRead =>
    refine work_goto rfl ?_
    rw [hTask]
    split
    · exact Nat.lt_succ_self 1
    · exact Nat.zero_lt_two
  | openCheck =>
    dsimp only
    split <;> exact work_goto rfl (by rw [hTask]; decide)
  | releaseCheck =>
    refine work_goto rfl ?_
    rw [hTask]
    split <;> decide
  | resetLock closing | resetClear closing | resetCancel closing =>
    exact work_goto rfl (by rw [hTask, Task.work, Task.work]; omega)
  | resetHold closing =>
    refine work_goto rfl ?_
    rw [hTask]
    cases closing <;> decide
  | _ => exact work_goto rfl (by rw [hTask, Task.work, Task.work]; omega)

/-! ## The next step -/

/-- Some thread can go on, or waits for the worker only. -/
theorem Mutex.next_thread (h : Mutex s) (hWork : s.work ≠ 0) :
    ∃ t, s.worker = .idle → s.ready (s.tasks t) = true := by
  cases hLock : s.stateLock with
  | some holder =>
    have hLocked := (h holder).1 hLock
    refine ⟨holder, fun hIdle => ?_⟩
    cases hTask : s.tasks holder with
    | startCancel entry | resetCancel closing => rw [ready, hIdle]; rfl
    | startCheck | startSet | startPc | startHold | startRelease | startSchedule | resetClear
    | resetHold => rfl
    | _ =>
      rw [hTask] at hLocked
      cases hLocked
  | none =>
    obtain ⟨t, -, hTask⟩ := Finset.exists_ne_zero_of_sum_ne_zero hWork
    refine ⟨t, fun hIdle => ?_⟩
    cases hAt : s.tasks t with
    | returned code =>
      rw [hAt] at hTask
      exact absurd rfl hTask
    | startLock entry | resetLock closing => rw [ready, hLock]; rfl
    | startCancel entry | resetCancel closing => rw [ready, hIdle]; rfl
    | _ => rfl

theorem stepWorker_work (hActive : s.worker ≠ .idle) :
    s.stepWorker.worker.work < s.worker.work := by
  unfold stepWorker
  cases hWorker : s.worker with
  | idle => exact absurd hWorker hActive
  | check | read =>
    dsimp only
    split <;> decide
  | clear | recheck => exact Nat.zero_lt_one

theorem stepWorker_tasks (s : State n) : s.stepWorker.tasks = s.tasks := by
  unfold stepWorker
  cases s.worker <;> rfl

theorem stepTask_worker (s : State n) (t : Fin n) : (s.stepTask held t).worker = s.worker := by
  unfold stepTask
  cases s.tasks t with
  | startCheck entry | runCheck entry polls | openCheck =>
    dsimp only
    split <;> rfl
  | runRelease polls => cases polls <;> rfl
  | _ => rfl

theorem step_internal {move : Move n} (hEnabled : s.Enabled move)
    (hInternal : move.internal = true) :
    (s.step held move).work + (s.step held move).worker.work < s.work + s.worker.work := by
  cases move with
  | thread t =>
    rw [step, stepTask_worker]
    exact Nat.add_lt_add_right (stepTask_work hEnabled) _
  | worker =>
    rw [step, work, stepWorker_tasks]
    exact Nat.add_lt_add_left (stepWorker_work hEnabled) _
  | call | dequeue | deviceEnds => cases hInternal

theorem step_work {move : Move n} (hEnabled : s.Enabled move) (hCall : move.isCall = false) :
    (s.step held move).work + move.isThread.toNat ≤ s.work := by
  cases move with
  | call => cases hCall
  | thread t => exact stepTask_work hEnabled
  | worker =>
    rw [step, work, stepWorker_tasks]
    exact le_rfl
  | dequeue | deviceEnds => exact le_rfl

theorem Mutex.progress (h : Mutex s) (hWork : s.work ≠ 0) :
    ∃ move : Move n, move.internal = true ∧ s.Enabled move := by
  by_cases hIdle : s.worker = .idle
  · obtain ⟨t, hReady⟩ := h.next_thread hWork
    exact ⟨.thread t, rfl, hReady hIdle⟩
  · exact ⟨.worker, rfl, hIdle⟩

theorem Mutex.descends (h : Mutex s) (hLeft : s.work + s.worker.work ≠ 0) :
    ∃ move : Move n, move.internal = true ∧ s.Enabled move ∧
      (s.step held move).work + (s.step held move).worker.work < s.work + s.worker.work := by
  have hMove : ∃ move : Move n, move.internal = true ∧ s.Enabled move := by
    by_cases hWork : s.work = 0
    · refine ⟨.worker, rfl, fun hIdle => ?_⟩
      rw [hWork, hIdle] at hLeft
      exact hLeft rfl
    · exact h.progress hWork
  obtain ⟨move, hInternal, hEnabled⟩ := hMove
  exact ⟨move, hInternal, hEnabled, step_internal hEnabled hInternal⟩

theorem work_ne_zero (h : (s.tasks t).quiet = false) : s.work ≠ 0 := by
  intro hZero
  rw [quiet_of_work_eq_zero hZero t] at h
  cases h

/-- From every reachable state: the threads take no more than the steps left to them unless
a new call comes, one of them or the worker can step while a call has not returned, and
their steps alone bring every call to its return. -/
theorem calls_return (held : Status → Status) (device : Npu) (moves : List (Move n))
    (hRun : Admits Enabled (step held) (probed n device) moves) :
    let s := moves.foldl (step held) (probed n device)
    (∀ later, Admits Enabled (step held) s later → (∀ move ∈ later, move.isCall = false) →
      later.countP Move.isThread ≤ s.work) ∧
    (∀ t, (s.tasks t).quiet = false → ∃ move : Move n, move.internal = true ∧ s.Enabled move) ∧
    ∃ later : List (Move n), later.length ≤ s.work + s.worker.work ∧
      (∀ move ∈ later, move.internal = true) ∧ Admits Enabled (step held) s later ∧
      ∀ t, ((later.foldl (step held) s).tasks t).quiet = true := by
  intro s
  have hMutex : Mutex s := mutex_reached hRun
  refine ⟨?_, ?_, ?_⟩
  · intro later hLater hNoCall
    exact hLater.countP_le (fun _ _ hEnabled hCall => step_work hEnabled hCall) hNoCall
  · intro t hTask
    exact hMutex.progress (work_ne_zero hTask)
  · obtain ⟨later, hLength, hInternal, hLater, hBottom⟩ :=
      exists_admits_bottom (f := fun s : State n => s.work + s.worker.work)
        (fun _ _ h hEnabled => step_mutex h hEnabled) (fun _ h hLeft => h.descends hLeft) hMutex
    exact ⟨later, hLength, hInternal, hLater,
      quiet_of_work_eq_zero (Nat.eq_zero_of_add_eq_zero_right hBottom)⟩

def resetter : Fin 2 := ⟨0, Nat.zero_lt_two⟩

def restarter : Fin 2 := ⟨1, Nat.one_lt_two⟩

/-- The reset waits for the worker inside the mutex, and a `START` for the mutex. -/
def bothWait : List (Move 2) :=
  [.call resetter .open, .thread resetter, .call resetter (.start 0 0)] ++
    List.replicate 8 (.thread resetter) ++
    [.dequeue, .call resetter .reset, .thread resetter, .thread resetter,
      .call restarter (.start 0 0)]

theorem calls_return_bothWait :
    let s := bothWait.foldl (step id) (probed 2 {})
    s.ready (s.tasks resetter) = false ∧ s.ready (s.tasks restarter) = false ∧
      (∀ later, Admits Enabled (step id) s later → (∀ move ∈ later, move.isCall = false) →
        later.countP Move.isThread ≤ s.work) ∧
      (∀ t, (s.tasks t).quiet = false → ∃ move : Move 2, move.internal = true ∧ s.Enabled move) ∧
      ∃ later : List (Move 2), later.length ≤ s.work + s.worker.work ∧
        (∀ move ∈ later, move.internal = true) ∧ Admits Enabled (step id) s later ∧
        ∀ t, ((later.foldl (step id) s).tasks t).quiet = true :=
  ⟨by decide, by decide, calls_return id {} bothWait (by decide)⟩

end State
end OpenNpux.Driver
