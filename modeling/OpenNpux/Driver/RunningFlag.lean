import OpenNpux.Driver.Coral

/-!
# The running flag

Operations that run one after another, with a device that halts or faults whenever it
likes. A flag that is clear then means a device that does not execute, as long as no
`RUN` gives up on a device that still does: `RUN` clears the flag when its polls are
used up and leaves the device alone.
-/

namespace OpenNpux.Driver.State

open Lib

variable {n : Nat} {held : Status → Status} {s : State n} {t : Fin n}

def Quiescent (s : State n) : Prop := s.worker = .idle ∧ ∀ t, (s.tasks t).quiet = true

instance (s : State n) : Decidable s.Quiescent :=
  inferInstanceAs (Decidable (s.worker = .idle ∧ ∀ t, (s.tasks t).quiet = true))

def OneAtATime (s : State n) : Move n → Prop
  | .call _ _ | .dequeue => s.Quiescent
  | .thread _ | .worker | .deviceEnds _ => True

instance (s : State n) : (move : Move n) → Decidable (s.OneAtATime move)
  | .call _ _ | .dequeue => inferInstanceAs (Decidable s.Quiescent)
  | .thread _ | .worker | .deviceEnds _ => inferInstanceAs (Decidable True)

def FlagTold (s : State n) : Prop := s.running = false → s.device.executing = false

/-- The last step of a `RUN` that has seen no end of its run, on a device that executes. -/
def abandonsRun (s : State n) : Move n → Bool
  | .thread t =>
    match s.tasks t with
    | .runClear status => !status.ended && s.device.executing
    | _ => false
  | _ => false

/-- What holds before the next step of an operation. -/
def Holds (s : State n) : Task → Prop
  | .startPc _ | .startHold | .startRelease | .startSchedule => s.running = true
  | .runPc .. | .runHold _ | .runRelease _ | .runPoll _ => s.running = true
  | .runClear status => s.running = true ∧ (status.ended = true → s.device.executing = false)
  | .pollClear _ => s.device.executing = false
  | .resetCancel _ | .resetHold _ => True
  | _ => s.FlagTold

structure Sound (s : State n) : Prop where
  status : s.device.executing = true → s.device.status.ended = false
  alone : ∀ t, (s.tasks t).quiet = false → s.worker = .idle ∧ ∀ u, u ≠ t → (s.tasks u).quiet = true
  task : ∀ t, (s.tasks t).quiet = false → s.Holds (s.tasks t)
  workerAlone : s.worker ≠ .idle → ∀ t, (s.tasks t).quiet = true
  worker : s.worker ≠ .idle → s.FlagTold ∧ (s.worker = .clear → s.device.executing = false)
  quiescent : s.Quiescent → s.FlagTold

theorem sound_goto {task : Task} (hStatus : s.device.executing = true →
    s.device.status.ended = false)
    (hIdle : s.worker = .idle) (hOthers : ∀ u, u ≠ t → (s.tasks u).quiet = true)
    (hHolds : s.Holds task) : Sound (s.goto t task) := by
  have hOther : ∀ u, u ≠ t → (s.goto t task).tasks u = s.tasks u :=
    fun u hu => goto_of_ne rfl task hu
  have hSelf : (s.goto t task).tasks t = task := goto_self s t task
  constructor
  · exact hStatus
  · intro u hActive
    by_cases hu : u = t
    · subst hu
      refine ⟨hIdle, fun w hw => ?_⟩
      rw [hOther w hw]
      exact hOthers w hw
    · rw [hOther u hu, hOthers u hu] at hActive
      cases hActive
  · intro u hActive
    by_cases hu : u = t
    · subst hu
      rw [hSelf]
      exact hHolds
    · rw [hOther u hu, hOthers u hu] at hActive
      cases hActive
  · exact fun hWorker => absurd hIdle hWorker
  · exact fun hWorker => absurd hIdle hWorker
  · rintro ⟨_, hQuiet⟩
    have hQuiet := hQuiet t
    rw [hSelf] at hQuiet
    cases task with
    | returned code => exact hHolds
    | _ => cases hQuiet

theorem Sound.not_executing (h : Sound s) (hEnded : s.device.status.ended = true) :
    s.device.executing = false := by
  by_contra hExecuting
  rw [h.status (by simpa using hExecuting)] at hEnded
  cases hEnded

theorem writeResetControl_status (held : Status → Status) {d : Npu}
    (h : d.executing = true → d.status.ended = false)
    (value : Nat) : (d.writeResetControl held value).executing = true →
      (d.writeResetControl held value).status.ended = false := by
  unfold Npu.writeResetControl
  split
  · exact fun hExecuting => nomatch hExecuting
  split
  · exact fun _ => rfl
  · exact h

theorem stepTask_sound (h : Sound s) (hReady : s.ready (s.tasks t) = true)
    (hEnds : s.abandonsRun (.thread t) = false) : Sound (s.stepTask held t) := by
  have hActive : (s.tasks t).quiet = false := by
    cases hTask : s.tasks t with
    | returned code =>
      rw [hTask] at hReady
      cases hReady
    | _ => rfl
  obtain ⟨hIdle, hOthers⟩ := h.alone t hActive
  have hHolds := h.task t hActive
  unfold stepTask
  cases hTask : s.tasks t with
  | returned code =>
    rw [hTask] at hActive
    cases hActive
  | startLock entry | startCancel entry | startPc entry | resetLock closing | resetCancel closing
  | runPc entry polls | releaseClose =>
    rw [hTask] at hHolds
    exact sound_goto h.status hIdle hOthers hHolds
  | startCheck entry =>
    rw [hTask] at hHolds
    dsimp only
    split
    · exact sound_goto h.status hIdle hOthers hHolds
    · exact sound_goto h.status hIdle hOthers hHolds
  | startSet entry => exact sound_goto h.status hIdle hOthers rfl
  | startHold =>
    rw [hTask] at hHolds
    exact sound_goto (writeResetControl_status held h.status 1) hIdle hOthers hHolds
  | startRelease =>
    rw [hTask] at hHolds
    exact sound_goto (writeResetControl_status held h.status 0) hIdle hOthers hHolds
  | startSchedule =>
    rw [hTask] at hHolds
    refine sound_goto h.status hIdle hOthers ?_
    exact fun hClear => absurd (hHolds.symm.trans hClear) (by decide)
  | resetClear closing => exact sound_goto h.status hIdle hOthers trivial
  | resetHold closing =>
    refine sound_goto (writeResetControl_status held h.status 1) hIdle hOthers ?_
    cases closing with
    | true => exact fun _ => rfl
    | false => exact fun _ => rfl
  | runCheck entry polls =>
    rw [hTask] at hHolds
    dsimp only
    split
    · exact sound_goto h.status hIdle hOthers hHolds
    · exact sound_goto h.status hIdle hOthers rfl
  | runHold polls =>
    rw [hTask] at hHolds
    exact sound_goto (writeResetControl_status held h.status 1) hIdle hOthers hHolds
  | runRelease polls =>
    rw [hTask] at hHolds
    refine sound_goto (writeResetControl_status held h.status 0) hIdle hOthers ?_
    cases polls with
    | zero => exact ⟨hHolds, fun hEnded => nomatch hEnded⟩
    | succ more => exact hHolds
  | runPoll more =>
    rw [hTask] at hHolds
    refine sound_goto h.status hIdle hOthers ?_
    cases more with
    | zero => exact ⟨hHolds, h.not_executing⟩
    | succ more =>
      rw [afterPoll]
      split
      · exact ⟨hHolds, h.not_executing⟩
      · exact hHolds
  | runClear status =>
    rw [hTask] at hHolds
    refine sound_goto h.status hIdle hOthers ?_
    intro _
    cases hEnded : status.ended with
    | true => exact hHolds.2 hEnded
    | false => simpa [abandonsRun, hTask, hEnded] using hEnds
  | pollRead =>
    rw [hTask] at hHolds
    refine sound_goto h.status hIdle hOthers ?_
    cases hEnded : s.device.status.ended with
    | true => exact h.not_executing hEnded
    | false => exact hHolds
  | pollClear status =>
    rw [hTask] at hHolds
    exact sound_goto h.status hIdle hOthers fun _ => hHolds
  | openCheck =>
    rw [hTask] at hHolds
    dsimp only
    split
    · exact sound_goto h.status hIdle hOthers hHolds
    · exact sound_goto h.status hIdle hOthers hHolds
  | releaseCheck =>
    rw [hTask] at hHolds
    refine sound_goto h.status hIdle hOthers ?_
    split
    · exact hHolds
    · exact hHolds

theorem sound_of_quiet (hStatus : s.device.executing = true → s.device.status.ended = false)
    (hQuiet : ∀ t, (s.tasks t).quiet = true) (hTold : s.FlagTold)
    (hSeen : s.worker = .clear → s.device.executing = false) : Sound s := by
  have hNone : ∀ t, (s.tasks t).quiet ≠ false := fun t hBusy => by simp [hQuiet t] at hBusy
  constructor
  · exact hStatus
  · exact fun t hBusy => absurd hBusy (hNone t)
  · exact fun t hBusy => absurd hBusy (hNone t)
  · exact fun _ => hQuiet
  · exact fun _ => ⟨hTold, hSeen⟩
  · exact fun _ => hTold

theorem stepWorker_sound (h : Sound s) (hActive : s.worker ≠ .idle) : Sound s.stepWorker := by
  obtain ⟨hTold, hSeen⟩ := h.worker hActive
  have hQuiet := h.workerAlone hActive
  unfold stepWorker
  cases hWorker : s.worker with
  | idle => exact absurd hWorker hActive
  | check =>
    refine sound_of_quiet h.status hQuiet hTold ?_
    intro hClear
    dsimp only at hClear
    split at hClear <;> cases hClear
  | read =>
    refine sound_of_quiet h.status hQuiet hTold ?_
    intro hClear
    apply h.not_executing
    dsimp only at hClear
    split at hClear
    · assumption
    · cases hClear
  | clear => exact sound_of_quiet h.status hQuiet (fun _ => hSeen hWorker) nofun
  | recheck => exact sound_of_quiet h.status hQuiet hTold nofun

theorem sound_deviceEnds (h : Sound s) (status : Status) :
    Sound { s with device := s.device.stop status } := by
  constructor
  · exact fun hExecuting => nomatch hExecuting
  · exact h.alone
  · intro t hBusy
    have hHolds := h.task t hBusy
    show Holds _ (s.tasks t)
    cases hTask : s.tasks t with
    | runClear status =>
      rw [hTask] at hHolds
      exact ⟨hHolds.1, fun _ => rfl⟩
    | startPc | startHold | startRelease | startSchedule | runPc | runHold | runRelease | runPoll =>
      rw [hTask] at hHolds
      exact hHolds
    | resetCancel | resetHold => trivial
    | pollClear => rfl
    | _ => exact fun _ => rfl
  · exact h.workerAlone
  · exact fun _ => ⟨fun _ => rfl, fun _ => rfl⟩
  · exact fun _ _ => rfl

theorem step_sound {move : Move n} (h : Sound s) (hEnabled : s.Enabled move)
    (hAlone : s.OneAtATime move) (hEnds : s.abandonsRun move = false) :
    Sound (s.step held move) := by
  cases move with
  | call t op =>
    obtain ⟨hIdle, hQuiet⟩ := hAlone
    apply sound_goto h.status hIdle (fun u _ => hQuiet u)
    have hTold := h.quiescent ⟨hIdle, hQuiet⟩
    cases op with
    | start flags entry =>
      rw [enter]
      split
      · exact hTold
      · exact hTold
    | _ => exact hTold
  | thread t => exact stepTask_sound h hEnabled hEnds
  | dequeue =>
    obtain ⟨hIdle, hQuiet⟩ := hAlone
    exact sound_of_quiet h.status hQuiet (h.quiescent ⟨hIdle, hQuiet⟩) nofun
  | worker => exact stepWorker_sound h hEnabled
  | deviceEnds status => exact sound_deviceEnds h status

theorem sound_probed {device : Npu} (hDevice : device.executing = false) :
    Sound (probed n device) :=
  sound_of_quiet (fun hExecuting => absurd (hDevice.symm.trans hExecuting) (by decide))
    (fun _ => rfl) (fun _ => hDevice) nofun

theorem abandonsRun_thread {move : Move n} (h : s.abandonsRun move = true) :
    ∃ t status, move = .thread t ∧ s.tasks t = .runClear status ∧ s.device.executing = true := by
  cases move with
  | thread t =>
    rw [abandonsRun] at h
    split at h
    · rename_i status hTask
      simp only [Bool.and_eq_true] at h
      exact ⟨t, status, rfl, hTask, h.2⟩
    · cases h
  | _ => cases h

theorem runClear_quiescent (h : Sound s) {status : Status} (hTask : s.tasks t = .runClear status) :
    (s.stepTask held t).Quiescent ∧ (s.stepTask held t).running = false ∧
      (s.stepTask held t).device = s.device := by
  obtain ⟨hIdle, hOthers⟩ := h.alone t (by rw [hTask]; rfl)
  rw [stepTask, hTask]
  refine ⟨⟨hIdle, fun u => ?_⟩, rfl, rfl⟩
  by_cases hu : u = t
  · subst hu
    simp [goto, Task.quiet]
  · simp only [goto, Function.update_of_ne hu]
    exact hOthers u hu

theorem Sound.told_iff (h : Sound s) {moves : List (Move n)}
    (hRun : Admits (fun s move => s.Enabled move ∧ s.OneAtATime move) (step held) s moves) :
    (∀ before after, moves = before ++ after →
        (before.foldl (step held) s).Quiescent → (before.foldl (step held) s).FlagTold) ↔
      Admits (fun s move => s.abandonsRun move = false) (step held) s moves := by
  induction moves generalizing s with
  | nil =>
    refine ⟨fun _ => trivial, fun _ before after hSplit => ?_⟩
    obtain ⟨rfl, rfl⟩ := List.append_eq_nil_iff.mp hSplit.symm
    exact h.quiescent
  | cons move moves ih =>
    obtain ⟨⟨hEnabled, hAlone⟩, hRest⟩ := hRun
    constructor
    · intro hTold
      have hEnds : s.abandonsRun move = false := by
        by_contra hAbandons
        obtain ⟨t, status, rfl, hTask, hExecuting⟩ := abandonsRun_thread (by simpa using hAbandons)
        obtain ⟨hQuiet, hClear, hDevice⟩ := runClear_quiescent h hTask
        have hStopped := hTold [.thread t] moves rfl hQuiet hClear
        rw [List.foldl_cons, List.foldl_nil, step, hDevice, hExecuting] at hStopped
        cases hStopped
      refine ⟨hEnds, (ih (step_sound h hEnabled hAlone hEnds) hRest).mp ?_⟩
      intro before after hSplit
      exact hTold (move :: before) after (by rw [hSplit, List.cons_append])
    · rintro ⟨hEnds, hLater⟩ before after hSplit
      cases before with
      | nil => exact h.quiescent
      | cons first before =>
        obtain ⟨rfl, hTail⟩ := List.cons.inj hSplit
        exact (ih (step_sound h hEnabled hAlone hEnds) hRest).mpr hLater before after hTail

/-- The flag tells the truth between the operations of a run exactly if no `RUN` of it gave
up on a device that executes. -/
theorem running_flag_told_iff (held : Status → Status) (device : Npu)
    (hDevice : device.executing = false) (moves : List (Move n))
    (hRun : Admits (fun s move => s.Enabled move ∧ s.OneAtATime move) (step held)
      (probed n device) moves) :
    (∀ before after, moves = before ++ after →
        let s := before.foldl (step held) (probed n device)
        s.Quiescent → s.running = false → s.device.executing = false) ↔
      Admits (fun s move => s.abandonsRun move = false) (step held) (probed n device) moves :=
  (sound_probed hDevice).told_iff hRun

def oneRun (device : List (Move 1)) : List (Move 1) :=
  [.call 0 .open, .thread 0, .call 0 (.run 0 1), .thread 0, .thread 0, .thread 0, .thread 0] ++
    device ++ [.thread 0, .thread 0, .call 0 .release, .thread 0, .thread 0]

theorem running_flag_told_haltedRun :
    Admits (fun s move => s.Enabled move ∧ s.OneAtATime move) (step id) (probed 1 {})
        (oneRun [.deviceEnds { halted := true }]) ∧
      ∀ before after, oneRun [.deviceEnds { halted := true }] = before ++ after →
        let s := before.foldl (step id) (probed 1 {})
        s.Quiescent → s.running = false → s.device.executing = false := by
  have hRun : Admits (fun s move => s.Enabled move ∧ s.OneAtATime move) (step id) (probed 1 {})
      (oneRun [.deviceEnds { halted := true }]) := by decide
  exact ⟨hRun, (running_flag_told_iff id {} rfl _ hRun).mpr (by decide)⟩

/-- The device does not halt within the one poll: it executes on after the release. -/
theorem timed_out_run_keeps_executing :
    let s := (oneRun []).foldl (step id) (probed 1 {})
    Admits (fun s move => s.Enabled move ∧ s.OneAtATime move) (step id) (probed 1 {}) (oneRun []) ∧
      s.Quiescent ∧ s.openCount = false ∧ s.running = false ∧ s.device.executing = true := by
  decide

end OpenNpux.Driver.State
