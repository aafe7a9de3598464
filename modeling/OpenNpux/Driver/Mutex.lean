import OpenNpux.Driver.Coral

/-!
# The mutex of the driver

`START` and `RESET` work inside `state_lock`, and no other operation takes it. Whatever the
interleaving, the lock names the one thread that stands between its acquisition and its
release.
-/

namespace OpenNpux.Driver

open Lib

/-- Inside the mutex. -/
def Task.locked : Task → Bool
  | .startCheck _ | .startCancel _ | .startSet _ | .startPc _ | .startHold | .startRelease
  | .startSchedule | .resetClear _ | .resetCancel _ | .resetHold _ => true
  | _ => false

namespace State

variable {n : Nat} {held : Status → Status} {s : State n} {t : Fin n}

def Mutex (s : State n) : Prop := ∀ t, s.stateLock = some t ↔ (s.tasks t).locked = true

theorem mutex_goto {s' : State n} {task : Task} (hTasks : s'.tasks = s.tasks)
    (hSelf : s'.stateLock = some t ↔ task.locked = true)
    (hOthers : ∀ u, u ≠ t → (s'.stateLock = some u ↔ (s.tasks u).locked = true)) :
    Mutex (s'.goto t task) := by
  intro u
  by_cases hu : u = t
  · subst hu
    rw [goto_self]
    exact hSelf
  · rw [goto_of_ne hTasks task hu]
    exact hOthers u hu

theorem Mutex.keeps {s' : State n} {task : Task} (h : Mutex s) (hTasks : s'.tasks = s.tasks)
    (hLock : s'.stateLock = s.stateLock) (hLocked : task.locked = (s.tasks t).locked) :
    Mutex (s'.goto t task) := by
  apply mutex_goto hTasks
  · rw [hLock, hLocked]
    exact h t
  · intro u _
    rw [hLock]
    exact h u

theorem Mutex.acquires {task : Task} (h : Mutex s) (hFree : s.stateLock = none)
    (hTask : task.locked = true) : Mutex ({ s with stateLock := some t }.goto t task) := by
  apply mutex_goto rfl
  · exact iff_of_true rfl hTask
  · intro u hu
    apply iff_of_false
    · exact fun hHolder => hu (Option.some.inj hHolder).symm
    · rw [← h u, hFree]
      exact (Option.some_ne_none u).symm

theorem Mutex.releases {s' : State n} {task : Task} (h : Mutex s) (hTasks : s'.tasks = s.tasks)
    (hFree : s'.stateLock = none) (hLocked : (s.tasks t).locked = true)
    (hTask : task.locked = false) :
    Mutex (s'.goto t task) := by
  apply mutex_goto hTasks
  · rw [hFree, hTask]
    exact iff_of_false (Option.some_ne_none t).symm Bool.false_ne_true
  · intro u hu
    rw [hFree, ← h u, (h t).2 hLocked]
    exact iff_of_false (Option.some_ne_none u).symm fun hSame => hu (Option.some.inj hSame).symm

theorem stepTask_mutex (h : Mutex s) (hReady : s.ready (s.tasks t) = true) :
    Mutex (s.stepTask held t) := by
  unfold stepTask
  cases hTask : s.tasks t with
  | returned code =>
    rw [hTask] at hReady
    cases hReady
  | startLock entry | resetLock closing =>
    rw [hTask] at hReady
    exact h.acquires (Option.isNone_iff_eq_none.mp hReady) rfl
  | startCheck entry =>
    dsimp only
    split
    · exact h.releases rfl rfl (by rw [hTask]; rfl) rfl
    · exact h.keeps rfl rfl (by rw [hTask]; rfl)
  | startSchedule => exact h.releases rfl rfl (by rw [hTask]; rfl) rfl
  | resetHold closing =>
    refine h.releases rfl rfl (by rw [hTask]; rfl) ?_
    cases closing <;> rfl
  | runCheck entry polls | openCheck =>
    dsimp only
    split <;> exact h.keeps rfl rfl (by rw [hTask]; rfl)
  | runRelease polls => cases polls <;> exact h.keeps rfl rfl (by rw [hTask]; rfl)
  | runPoll more =>
    refine h.keeps rfl rfl ?_
    rw [hTask]
    cases more with
    | zero => rfl
    | succ more =>
      rw [afterPoll]
      split <;> rfl
  | pollRead | releaseCheck =>
    refine h.keeps rfl rfl ?_
    rw [hTask]
    split <;> rfl
  | _ => exact h.keeps rfl rfl (by rw [hTask]; rfl)

theorem step_mutex {move : Move n} (h : Mutex s) (hEnabled : s.Enabled move) :
    Mutex (s.step held move) := by
  cases move with
  | call t op =>
    have hQuiet : (s.tasks t).locked = false := by
      cases hTask : s.tasks t with
      | returned code => rfl
      | _ =>
        have hReturned := hEnabled.1
        rw [hTask] at hReturned
        cases hReturned
    refine h.keeps rfl rfl ?_
    rw [hQuiet]
    cases op with
    | start flags entry =>
      rw [enter]
      split <;> rfl
    | _ => rfl
  | thread t => exact stepTask_mutex h hEnabled
  | dequeue | deviceEnds status => exact h
  | worker =>
    unfold step stepWorker
    cases s.worker <;> exact h

theorem Mutex.others_unlocked (h : Mutex s) (hLocked : (s.tasks t).locked = true) {u : Fin n}
    (hu : u ≠ t) : (s.tasks u).locked = false := by
  by_contra hBoth
  have hHolder := (h u).2 (by simpa using hBoth)
  rw [(h t).2 hLocked] at hHolder
  exact hu (Option.some.inj hHolder).symm

theorem mutex_probed (device : Npu) : Mutex (probed n device) :=
  fun t => iff_of_false (Option.some_ne_none t).symm Bool.false_ne_true

theorem mutex_reached {device : Npu} {moves : List (Move n)}
    (hRun : Admits Enabled (step held) (probed n device) moves) :
    Mutex (moves.foldl (step held) (probed n device)) :=
  hRun.invariant (mutex_probed device) fun _ _ h hMove => step_mutex h hMove

end State
end OpenNpux.Driver
