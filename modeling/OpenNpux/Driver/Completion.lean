import OpenNpux.Driver.RunningFlag

/-!
# The completion of a started run

From the `START` that sets the flag to the report of its completion, the flag and the
delayed work are what wakes a sleeping poller. A poll that acts on the status of an
earlier run clears the flag under a `START` in progress, and the worker then does not
run again. In the interleavings without such a poll no completion is lost.
-/

namespace OpenNpux.Driver

open Lib

structure Report where
  /-- A poll or the worker has reported its end. -/
  reported : Bool := false
  /-- Its `START` has returned and its end has not been reported. -/
  awaited : Bool := false
deriving DecidableEq

/-- A `START` that has set the flag and not yet released the NPU. -/
def Task.betweenSetAndRelease : Task → Bool
  | .startPc _ | .startHold | .startRelease => true
  | _ => false

def Operation.asynchronous : Operation → Bool
  | .open | .start .. | .poll => true
  | .run .. | .reset | .release => false

namespace State

variable {n : Nat} {held : Status → Status} {s s' : State n} {r r' : Report} {t u : Fin n}
  {task : Task}

def reportedBy (r : Report) (s : State n) : Report :=
  if s.device.executing then r else ⟨true, false⟩

def reportAfterTask (r : Report) (s : State n) : Task → Report
  | .startRelease => { r with reported := false }
  | .startSchedule => { r with awaited := !r.reported }
  | .pollClear _ => reportedBy r s
  | _ => r

def reportAfter (r : Report) (s : State n) : Move n → Report
  | .thread t => reportAfterTask r s (s.tasks t)
  | .worker => if s.worker = .clear then reportedBy r s else r
  | .call .. | .dequeue | .deviceEnds _ => r

def reportedStep (held : Status → Status) (x : State n × Report) (move : Move n) :
    State n × Report :=
  (x.1.step held move, reportAfter x.2 x.1 move)

/-- A poll that clears a set flag does so for the run that set it. -/
def freshTask (s : State n) : Task → Bool
  | .pollClear _ => !s.running ||
      (!s.device.executing && decide (∀ u, (s.tasks u).betweenSetAndRelease = false))
  | _ => true

def Fresh (s : State n) : Move n → Prop
  | .thread t => freshTask s (s.tasks t) = true
  | .call _ op => op.asynchronous = true
  | .dequeue | .worker | .deviceEnds _ => True

instance (s : State n) : (move : Move n) → Decidable (s.Fresh move)
  | .thread t => inferInstanceAs (Decidable (freshTask s (s.tasks t) = true))
  | .call _ op => inferInstanceAs (Decidable (op.asynchronous = true))
  | .dequeue | .worker | .deviceEnds _ => inferInstanceAs (Decidable True)

/-- `START` between its cancellation of the work and its scheduling of it. -/
def Exclusive (s : State n) (r : Report) (t : Fin n) : Prop :=
  s.stateLock = some t ∧ r.awaited = false ∧ s.worker = .idle ∧ s.workQueued = false

/-- What holds before the next step of a `START` or a poll. -/
def Awaits (s : State n) (r : Report) (t : Fin n) : Task → Prop
  | .returned _ | .openCheck | .pollRead | .pollClear _ | .startLock _ => True
  | .startCheck _ => s.stateLock = some t
  | .startCancel _ => s.stateLock = some t ∧ r.awaited = false
  | .startSet _ => Exclusive s r t
  | .startPc _ | .startHold | .startRelease => Exclusive s r t ∧ s.running = true
  | .startSchedule => Exclusive s r t ∧ (r.reported = false → s.running = true)
  | _ => False

structure Watched (s : State n) (r : Report) : Prop where
  status : s.device.executing = true → s.device.status.ended = false
  task : ∀ t, Awaits s r t (s.tasks t)
  clear : s.worker = .clear → s.device.executing = false
  awaited : r.awaited = true → s.running = true ∧ (s.workQueued = true ∨ s.worker ≠ .idle)

theorem Awaits.unlocked (h : Awaits s r t task) (hLock : s.stateLock ≠ some t) :
    Awaits s' r' t task := by
  cases task with
  | startCheck => exact absurd h hLock
  | startCancel => exact absurd h.1 hLock
  | startSet => exact absurd h.1 hLock
  | startPc | startHold | startRelease | startSchedule => exact absurd h.1.1 hLock
  | returned | openCheck | pollRead | pollClear | startLock => trivial
  | _ => exact h.elim

theorem Awaits.active (h : Awaits s r t task)
    (hActive : s.workQueued = true ∨ s.worker ≠ .idle) (hLock : s'.stateLock = s.stateLock)
    (hAwaited : r.awaited = false → r'.awaited = false) : Awaits s' r' t task := by
  have hNot : ¬Exclusive s r t := by
    rintro ⟨_, _, hIdle, hEmpty⟩
    rcases hActive with hQueued | hWorker
    · rw [hEmpty] at hQueued
      cases hQueued
    · exact hWorker hIdle
  cases task with
  | startCheck => exact hLock.trans h
  | startCancel => exact ⟨hLock.trans h.1, hAwaited h.2⟩
  | startSet => exact absurd h hNot
  | startPc | startHold | startRelease | startSchedule => exact absurd h.1 hNot
  | returned | openCheck | pollRead | pollClear | startLock => trivial
  | _ => exact h.elim

theorem Awaits.not_betweenSetAndRelease (h : Awaits s r t task) (hRunning : s.running = false) :
    task.betweenSetAndRelease = false := by
  cases task with
  | startPc | startHold | startRelease =>
    rw [h.2] at hRunning
    cases hRunning
  | _ => rfl

theorem Awaits.report (h : Awaits s r t task) (hSet : task.betweenSetAndRelease = false) :
    Awaits { s with running := false } ⟨true, false⟩ t task := by
  cases task with
  | startCheck => exact h
  | startCancel => exact ⟨h.1, rfl⟩
  | startSet => exact ⟨h.1, rfl, h.2.2⟩
  | startPc | startHold | startRelease => cases hSet
  | startSchedule => exact ⟨⟨h.1.1, rfl, h.1.2.2⟩, nofun⟩
  | returned | openCheck | pollRead | pollClear | startLock => trivial
  | _ => exact h.elim

theorem watched_goto (hTasks : s'.tasks = s.tasks)
    (hStatus : s'.device.executing = true → s'.device.status.ended = false)
    (hClear : s'.worker = .clear → s'.device.executing = false)
    (hAwaited : r'.awaited = true → s'.running = true ∧ (s'.workQueued = true ∨ s'.worker ≠ .idle))
    (hSelf : Awaits s' r' t task) (hOthers : ∀ u, u ≠ t → Awaits s' r' u (s.tasks u)) :
    Watched (s'.goto t task) r' := by
  refine ⟨hStatus, fun u => ?_, hClear, hAwaited⟩
  by_cases hu : u = t
  · subst hu
    rw [goto_self]
    exact hSelf
  · rw [goto_of_ne hTasks task hu]
    exact hOthers u hu

theorem Watched.not_executing (h : Watched s r) (hEnded : s.device.status.ended = true) :
    s.device.executing = false := by
  by_contra hExecuting
  rw [h.status (by simpa using hExecuting)] at hEnded
  cases hEnded

theorem Watched.others (h : Watched s r) (hLock : s.stateLock = some t ∨ s.stateLock = none) :
    ∀ u, u ≠ t → Awaits s' r' u (s.tasks u) := by
  intro u hu
  apply (h.task u).unlocked
  rcases hLock with hLock | hLock
  · rw [hLock]
    exact fun hSame => hu (Option.some.inj hSame).symm
  · rw [hLock]
    exact nofun

theorem Watched.exclusive (h : Watched s r) (hExclusive : Exclusive s r t)
    (hTasks : s'.tasks = s.tasks) (hWorker : s'.worker = s.worker)
    (hStatus : s'.device.executing = true → s'.device.status.ended = false)
    (hAwaited : r'.awaited = r.awaited) (hSelf : Awaits s' r' t task) :
    Watched (s'.goto t task) r' := by
  apply watched_goto hTasks hStatus
  · intro hClear
    rw [hWorker, hExclusive.2.2.1] at hClear
    cases hClear
  · intro hNow
    rw [hAwaited, hExclusive.2.1] at hNow
    cases hNow
  · exact hSelf
  · exact h.others (.inl hExclusive.1)

theorem Watched.pollClear (h : Watched s r) {status : Status}
    (hFresh : freshTask s (.pollClear status) = true) (code : Int) :
    Watched ({ s with running := false }.goto t (.returned code)) (reportedBy r s) := by
  simp only [freshTask, Bool.or_eq_true, Bool.not_eq_true', Bool.and_eq_true, decide_eq_true_eq]
    at hFresh
  unfold reportedBy
  split
  · -- the device executes: the flag was clear already
    rename_i hExecuting
    have hRunning : s.running = false := by
      rcases hFresh with hRunning | ⟨hStopped, _⟩
      · exact hRunning
      · rw [hExecuting] at hStopped
        cases hStopped
    have hSame : { s with running := false } = s := by rw [← hRunning]
    rw [hSame]
    exact watched_goto rfl h.status h.clear h.awaited trivial fun u _ => h.task u
  · refine watched_goto rfl h.status h.clear nofun trivial fun u _ => ?_
    apply (h.task u).report
    rcases hFresh with hRunning | ⟨_, hSet⟩
    · exact (h.task u).not_betweenSetAndRelease hRunning
    · exact hSet u

theorem stepTask_watched (h : Watched s r) (hReady : s.ready (s.tasks t) = true)
    (hFresh : freshTask s (s.tasks t) = true) :
    Watched (s.stepTask held t) (reportAfterTask r s (s.tasks t)) := by
  have hTask := h.task t
  unfold stepTask reportAfterTask
  cases hAt : s.tasks t <;> rw [hAt] at hTask hReady hFresh
  case returned code => cases hReady
  case startLock entry =>
    have hFree : s.stateLock = none := Option.isNone_iff_eq_none.mp hReady
    exact watched_goto rfl h.status h.clear h.awaited rfl (h.others (.inr hFree))
  case startCheck entry =>
    dsimp only
    split
    · exact watched_goto rfl h.status h.clear h.awaited trivial (h.others (.inl hTask))
    · -- a run that is awaited has its flag set
      have hNone : r.awaited = false := by
        by_contra hAwaited
        exact ‹¬s.running = true› (h.awaited (by simpa using hAwaited)).1
      exact watched_goto rfl h.status h.clear h.awaited ⟨hTask, hNone⟩ (h.others (.inl hTask))
  case startCancel entry =>
    obtain ⟨hLock, hNone⟩ := hTask
    have hIdle : s.worker = .idle := eq_of_beq hReady
    refine watched_goto rfl h.status h.clear ?_ ?_ ?_
    · intro hAwaited
      rw [hNone] at hAwaited
      cases hAwaited
    · exact ⟨hLock, hNone, hIdle, rfl⟩
    · exact h.others (.inl hLock)
  case startSet entry => exact h.exclusive hTask rfl rfl h.status rfl ⟨hTask, rfl⟩
  case startPc entry => exact h.exclusive hTask.1 rfl rfl h.status rfl hTask
  case startHold =>
    exact h.exclusive hTask.1 rfl rfl (writeResetControl_status held h.status 1) rfl hTask
  case startRelease =>
    exact h.exclusive hTask.1 rfl rfl (writeResetControl_status held h.status 0) rfl
      ⟨hTask.1, fun _ => hTask.2⟩
  case startSchedule =>
    obtain ⟨⟨hLock, _, hIdle, _⟩, hRunning⟩ := hTask
    refine watched_goto rfl h.status h.clear ?_ ?_ ?_
    · intro hAwaited
      exact ⟨hRunning (by simpa using hAwaited), .inl rfl⟩
    · trivial
    · exact h.others (.inl hLock)
  case openCheck =>
    dsimp only
    split
    · exact watched_goto rfl h.status h.clear h.awaited trivial fun u _ => h.task u
    · exact watched_goto rfl h.status h.clear h.awaited trivial fun u _ => h.task u
  case pollRead =>
    dsimp only
    refine watched_goto rfl h.status h.clear h.awaited ?_ fun u _ => h.task u
    split <;> trivial
  case pollClear status => exact h.pollClear hFresh _
  all_goals exact hTask.elim

theorem stepWorker_watched (h : Watched s r) (hActive : s.worker ≠ .idle) :
    Watched s.stepWorker (if s.worker = .clear then reportedBy r s else r) := by
  unfold stepWorker
  cases hWorker : s.worker with
  | idle => exact absurd hWorker hActive
  | check =>
    refine ⟨h.status, fun u => (h.task u).active (.inr hActive) rfl id, ?_, ?_⟩
    · dsimp only
      split <;> exact nofun
    · intro hAwaited
      have hRunning := (h.awaited hAwaited).1
      exact ⟨hRunning, .inr (by simp [hRunning])⟩
  | read =>
    refine ⟨h.status, fun u => (h.task u).active (.inr hActive) rfl id, ?_, ?_⟩
    · dsimp only
      split
      · exact fun _ => h.not_executing ‹_›
      · exact nofun
    · intro hAwaited
      refine ⟨(h.awaited hAwaited).1, .inr ?_⟩
      dsimp only
      split <;> exact nofun
  | clear =>
    have hStopped : reportedBy r s = ⟨true, false⟩ := by simp [reportedBy, h.clear hWorker]
    rw [if_pos rfl, hStopped]
    exact ⟨h.status, fun u => (h.task u).active (.inr hActive) rfl fun _ => rfl, nofun, nofun⟩
  | recheck =>
    refine ⟨h.status, fun u => (h.task u).active (.inr hActive) rfl id, nofun, ?_⟩
    intro hAwaited
    have hRunning := (h.awaited hAwaited).1
    exact ⟨hRunning, .inl (by simp [hRunning])⟩

theorem step_watched {move : Move n} (h : Watched s r) (hEnabled : s.Enabled move)
    (hFresh : s.Fresh move) : Watched (s.step held move) (reportAfter r s move) := by
  cases move with
  | call t op =>
    refine watched_goto rfl h.status h.clear h.awaited ?_ fun u _ => h.task u
    cases op with
    | start flags entry =>
      rw [enter]
      split <;> trivial
    | «open» | poll => trivial
    | run | reset | release => cases hFresh
  | thread t => exact stepTask_watched h hEnabled hFresh
  | dequeue =>
    refine ⟨h.status, fun u => (h.task u).active (.inl hEnabled.1) rfl id, ?_, ?_⟩
    · intro hFree
      cases hFree
    · intro hAwaited
      refine ⟨(h.awaited hAwaited).1, .inr fun hIdle => ?_⟩
      cases hIdle
  | worker => exact stepWorker_watched h hEnabled
  | deviceEnds status =>
    refine ⟨fun hExecuting => ?_, h.task, fun _ => rfl, h.awaited⟩
    cases hExecuting

/-- With every poll fresh, a run whose `START` has returned and whose end has not been
reported has its flag set and its work queued or executing. -/
theorem completion_not_lost (held : Status → Status) (device : Npu)
    (hDevice : device.executing = false) (moves : List (Move n))
    (hRun : Admits (fun x move => x.1.Enabled move ∧ x.1.Fresh move) (reportedStep held)
      (probed n device, {}) moves) :
    let x := moves.foldl (reportedStep held) (probed n device, {})
    x.2.awaited = true → x.1.running = true ∧ (x.1.workQueued = true ∨ x.1.worker ≠ .idle) := by
  have hWatched : Watched (moves.foldl (reportedStep held) (probed n device, {})).1
      (moves.foldl (reportedStep held) (probed n device, {})).2 := by
    apply hRun.invariant (I := fun x => Watched x.1 x.2)
    · refine ⟨fun hExecuting => ?_, fun _ => trivial, nofun, nofun⟩
      rw [show (probed n device).device.executing = false from hDevice] at hExecuting
      cases hExecuting
    · exact fun x move h hMove => step_watched h hMove.1 hMove.2
  exact hWatched.awaited

def starter : Fin 2 := ⟨0, Nat.zero_lt_two⟩

def flagSet : List (Move 2) :=
  [.call starter .open, .thread starter, .call starter (.start 0 0)] ++
    List.replicate 4 (.thread starter)

def startReturns : List (Move 2) :=
  List.replicate 4 (.thread starter) ++ [.dequeue, .worker]

theorem completion_not_lost_startReturns :
    let x := (flagSet ++ startReturns).foldl (reportedStep id)
      (probed 2 { status := { halted := true } }, {})
    x.2.awaited = true ∧ x.1.running = true ∧ (x.1.workQueued = true ∨ x.1.worker ≠ .idle) :=
  ⟨by decide, completion_not_lost id { status := { halted := true } } rfl (flagSet ++ startReturns)
    (by decide) (by decide)⟩

/-- A poll between the set and the release clears the flag; the `START` returns 0, and the
worker ends while the device executes. -/
theorem stale_poll_loses_completion :
    let moves := flagSet ++ [.call 1 .poll, .thread 1, .thread 1] ++ startReturns
    let x := moves.foldl (reportedStep id) (probed 2 { status := { halted := true } }, {})
    Admits Enabled (step id) (probed 2 { status := { halted := true } }) moves ∧
      x.1.tasks 0 = .returned 0 ∧ x.1.device.executing = true ∧ x.2.awaited = true ∧
      x.1.running = false ∧ x.1.workQueued = false ∧ x.1.worker = .idle := by
  decide

end State
end OpenNpux.Driver
