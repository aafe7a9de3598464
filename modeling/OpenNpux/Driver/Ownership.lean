import OpenNpux.Driver.Mutex

/-!
# Who owns the NPU

A run owns the NPU from the check that a `START` or `RUN` passes until it halts or
faults, a `RESET` stops it, or its `RUN` returns. Two runs can own it at once: a `START`
tests and sets the flag in two steps, the flag is cleared from a status that belongs to
an earlier run, and a `RESET` clears it before it stops the device and may come before the
register writes of the run that it stops. In the interleavings without these, a check made
while a run owns the NPU fails, and no two runs are on their way to the release at once.
-/

namespace OpenNpux.Driver

open Lib

structure Owner (n : Nat) where
  thread : Fin n
  isRun : Bool
  /-- It has released the NPU from reset. -/
  started : Bool := false
deriving DecidableEq

/-- A `START` that has passed its check and not yet set the flag. -/
def Task.betweenCheckAndSet : Task → Bool
  | .startCancel _ | .startSet _ => true
  | _ => false

/-- A `RESET` that has cleared the flag and not yet stopped the NPU. -/
def Task.betweenClearAndHold : Task → Bool
  | .resetCancel _ | .resetHold _ => true
  | _ => false

def Task.unsettled (task : Task) : Bool := task.betweenCheckAndSet || task.betweenClearAndHold

def Task.runStarts : Task → Bool
  | .runPc .. | .runHold _ | .runRelease _ => true
  | _ => false

/-- A `START` or `RUN` that has passed its check and not yet released the NPU. -/
def Task.starts : Task → Bool
  | .startCancel _ | .startSet _ | .startPc _ | .startHold | .startRelease => true
  | task => task.runStarts

def Task.isCheck : Task → Bool
  | .startCheck _ | .runCheck .. => true
  | _ => false

namespace State

variable {n : Nat} {held : Status → Status} {s : State n} {owner : Option (Owner n)} {t : Fin n}

def ownerAfterTask (owner : Option (Owner n)) (s : State n) (t : Fin n) : Option (Owner n) :=
  match s.tasks t with
  | .startCheck _ => if s.running then owner else some ⟨t, false, false⟩
  | .runCheck .. => if s.running then owner else some ⟨t, true, false⟩
  | .startRelease | .runRelease _ =>
    owner.map fun o => if o.thread = t then { o with started := true } else o
  | .resetHold _ => none
  | .runClear _ => owner.filter fun o => !(o.isRun && decide (o.thread = t))
  | _ => owner

def ownerAfter (owner : Option (Owner n)) (s : State n) : Move n → Option (Owner n)
  | .thread t => ownerAfterTask owner s t
  | .deviceEnds _ => owner.filter fun o => !o.started
  | _ => owner

def ownedStep (held : Status → Status) (x : State n × Option (Owner n)) (move : Move n) :
    State n × Option (Owner n) :=
  (x.1.step held move, ownerAfter x.2 x.1 move)

/-- A thread's step that takes neither the flag nor the NPU from the run that owns it. -/
def orderlyTask (s : State n) (owner : Option (Owner n)) (t : Fin n) : Task → Bool
  | .runCheck .. => decide (∀ u, (s.tasks u).betweenCheckAndSet = false) &&
      (owner.isNone || decide (∀ u, (s.tasks u).betweenClearAndHold = false))
  | .resetHold _ => decide (∀ u, (s.tasks u).runStarts = false)
  | .pollClear _ => owner.isNone
  | .runClear _ => owner.all fun o => o.isRun && decide (o.thread = t)
  | _ => true

def Orderly (x : State n × Option (Owner n)) : Move n → Prop
  | .thread t => orderlyTask x.1 x.2 t (x.1.tasks t) = true
  | .worker => x.1.worker = .clear → x.2 = none
  | .call .. | .dequeue | .deviceEnds _ => True

instance (x : State n × Option (Owner n)) : (move : Move n) → Decidable (Orderly x move)
  | .thread t => inferInstanceAs (Decidable (orderlyTask x.1 x.2 t (x.1.tasks t) = true))
  | .worker => inferInstanceAs (Decidable (x.1.worker = .clear → x.2 = none))
  | .call .. | .dequeue | .deviceEnds _ => inferInstanceAs (Decidable True)

def Owns (owner : Option (Owner n)) (t : Fin n) : Prop :=
  ∃ o ∈ owner, o.thread = t ∧ o.started = false

/-- A run that owns the NPU has set the flag, or is about to, or is about to be reset, and it
is the only one on its way to the release. -/
structure Guarded (s : State n) (owner : Option (Owner n)) : Prop where
  owned : owner.isSome = true → s.running = true ∨ ∃ t, (s.tasks t).unsettled = true
  starts : ∀ t, (s.tasks t).starts = true → Owns owner t

theorem Owns.isSome (h : Owns owner t) : owner.isSome = true := by
  obtain ⟨o, hOwner, -⟩ := h
  exact Option.isSome_of_mem hOwner

theorem Owns.unique {u : Fin n} (h : Owns owner t) (h' : Owns owner u) : t = u := by
  obtain ⟨o, hOwner, rfl, -⟩ := h
  obtain ⟨o', hOwner', rfl, -⟩ := h'
  rw [Option.mem_unique hOwner hOwner']

theorem guarded_goto {s' : State n} {task : Task} {owner' : Option (Owner n)}
    (hTasks : s'.tasks = s.tasks)
    (hOwned : owner'.isSome = true →
      s'.running = true ∨ task.unsettled = true ∨ ∃ u, u ≠ t ∧ (s.tasks u).unsettled = true)
    (hSelf : task.starts = true → Owns owner' t)
    (hOthers : ∀ u, u ≠ t → (s.tasks u).starts = true → Owns owner' u) :
    Guarded (s'.goto t task) owner' := by
  constructor
  · intro hSome
    rcases hOwned hSome with hRunning | hUnsettled | ⟨u, hu, hUnsettled⟩
    · exact .inl hRunning
    · exact .inr ⟨t, by rwa [goto_self]⟩
    · exact .inr ⟨u, by rwa [goto_of_ne hTasks task hu]⟩
  · intro u hStarts
    by_cases hu : u = t
    · subst hu
      rw [goto_self] at hStarts
      exact hSelf hStarts
    · rw [goto_of_ne hTasks task hu] at hStarts
      exact hOthers u hu hStarts

theorem Guarded.elsewhere (h : Guarded s owner) (hSettled : (s.tasks t).unsettled = false)
    (hSome : owner.isSome = true) :
    s.running = true ∨ ∃ u, u ≠ t ∧ (s.tasks u).unsettled = true := by
  rcases h.owned hSome with hRunning | ⟨u, hUnsettled⟩
  · exact .inl hRunning
  · refine .inr ⟨u, ?_, hUnsettled⟩
    rintro rfl
    rw [hSettled] at hUnsettled
    cases hUnsettled

theorem Guarded.moves {s' : State n} {task : Task} (h : Guarded s owner)
    (hTasks : s'.tasks = s.tasks) (hStarts : task.starts = true → (s.tasks t).starts = true)
    (hOwned : owner.isSome = true →
      s'.running = true ∨ task.unsettled = true ∨ ∃ u, u ≠ t ∧ (s.tasks u).unsettled = true) :
    Guarded (s'.goto t task) owner :=
  guarded_goto hTasks hOwned (fun hTask => h.starts t (hStarts hTask)) fun u _ => h.starts u

theorem Guarded.passes {s' : State n} {task : Task} (h : Guarded s owner)
    (hTasks : s'.tasks = s.tasks) (hRunning : s'.running = s.running)
    (hStarts : task.starts = true → (s.tasks t).starts = true)
    (hSettled : (s.tasks t).unsettled = false) : Guarded (s'.goto t task) owner := by
  apply h.moves hTasks hStarts
  intro hSome
  rw [hRunning]
  rcases h.elsewhere hSettled hSome with hFlag | hElsewhere
  · exact .inl hFlag
  · exact .inr (.inr hElsewhere)

theorem Guarded.begins {s' : State n} {task : Task} {isRun : Bool} (h : Guarded s owner)
    (hTasks : s'.tasks = s.tasks) (hNone : ¬ owner.isSome = true)
    (hTask : s'.running = true ∨ task.unsettled = true) :
    Guarded (s'.goto t task) (some ⟨t, isRun, false⟩) := by
  apply guarded_goto hTasks
  · exact fun _ => hTask.imp_right .inl
  · exact fun _ => ⟨_, rfl, rfl, rfl⟩
  · exact fun u _ hStarts => absurd (h.starts u hStarts).isSome hNone

theorem Guarded.releases {s' : State n} {task : Task} (h : Guarded s owner)
    (hTasks : s'.tasks = s.tasks) (hRunning : s'.running = s.running)
    (hStarts : (s.tasks t).starts = true) (hSettled : (s.tasks t).unsettled = false)
    (hTask : task.starts = false) :
    Guarded (s'.goto t task)
      (owner.map fun o => if o.thread = t then { o with started := true } else o) := by
  apply guarded_goto hTasks
  · rw [Option.isSome_map, hRunning]
    intro hSome
    rcases h.elsewhere hSettled hSome with hFlag | hElsewhere
    · exact .inl hFlag
    · exact .inr (.inr hElsewhere)
  · intro hBoth
    rw [hTask] at hBoth
    cases hBoth
  · exact fun u hu hOther => absurd ((h.starts u hOther).unique (h.starts t hStarts)) hu

theorem guarded_free {s' : State n} {task : Task} (hTasks : s'.tasks = s.tasks)
    (hTask : task.starts = false) (hOthers : ∀ u, u ≠ t → (s.tasks u).starts = false) :
    Guarded (s'.goto t task) none := by
  apply guarded_goto hTasks
  · exact nofun
  · intro hBoth
    rw [hTask] at hBoth
    cases hBoth
  · intro u hu hBoth
    rw [hOthers u hu] at hBoth
    cases hBoth

theorem locked_of_unsettled {task : Task} (h : task.unsettled = true) : task.locked = true := by
  cases task with
  | startCancel | startSet | resetCancel | resetHold => rfl
  | _ => cases h

theorem locked_of_starts {task : Task} (h : task.starts = true) (hRun : task.runStarts = false) :
    task.locked = true := by
  cases task with
  | startCancel | startSet | startPc | startHold | startRelease => rfl
  | _ => exact absurd (hRun.symm.trans h) (by decide)

theorem Guarded.running_of_check (h : Guarded s owner) (hMutex : Mutex s)
    (hLocked : (s.tasks t).locked = true) (hSettled : (s.tasks t).unsettled = false)
    (hSome : owner.isSome = true) : s.running = true := by
  rcases h.elsewhere hSettled hSome with hFlag | ⟨u, hu, hUnsettled⟩
  · exact hFlag
  · have hUnlocked := hMutex.others_unlocked hLocked hu
    rw [locked_of_unsettled hUnsettled] at hUnlocked
    cases hUnlocked

theorem Guarded.check_fails (h : Guarded s owner) (hMutex : Mutex s)
    (hOrderly : orderlyTask s owner t (s.tasks t) = true) (hSome : owner.isSome = true)
    (hCheck : (s.tasks t).isCheck = true) : s.running = true := by
  cases hTask : s.tasks t with
  | startCheck entry =>
    exact h.running_of_check hMutex (by rw [hTask]; rfl) (by rw [hTask]; rfl) hSome
  | runCheck entry polls =>
    simp only [hTask, orderlyTask, Bool.and_eq_true, Bool.or_eq_true, decide_eq_true_eq,
      Option.isNone_iff_eq_none] at hOrderly
    rcases h.owned hSome with hFlag | ⟨u, hUnsettled⟩
    · exact hFlag
    · obtain ⟨hSets, rfl | hResets⟩ := hOrderly
      · cases hSome
      · rw [Task.unsettled, hSets u, hResets u] at hUnsettled
        cases hUnsettled
  | _ =>
    rw [hTask] at hCheck
    cases hCheck

/-- A `RESET` that stops the NPU is alone: a `START` is kept out by the mutex. -/
theorem Mutex.reset_alone (hMutex : Mutex s) {closing : Bool}
    (hTask : s.tasks t = .resetHold closing)
    (hOrderly : orderlyTask s owner t (s.tasks t) = true) (u : Fin n) (hu : u ≠ t) :
    (s.tasks u).starts = false := by
  rw [hTask] at hOrderly
  by_contra hStarts
  have hLocked := locked_of_starts (by simpa using hStarts) (of_decide_eq_true hOrderly u)
  rw [hMutex.others_unlocked (t := t) (by rw [hTask]; rfl) hu] at hLocked
  cases hLocked

theorem Guarded.runClear (h : Guarded s owner) {code : Int}
    (hOrderly : (owner.all fun o => o.isRun && decide (o.thread = t)) = true) :
    Guarded ({ s with running := false }.goto t (.returned code))
      (owner.filter fun o => !(o.isRun && decide (o.thread = t))) := by
  have hGone : owner.filter (fun o => !(o.isRun && decide (o.thread = t))) = none := by
    cases owner with
    | none => rfl
    | some o =>
      have hOwn : (o.isRun && decide (o.thread = t)) = true := hOrderly
      rw [Option.filter_some, hOwn]
      rfl
  rw [hGone]
  refine guarded_free rfl rfl fun u hu => ?_
  by_contra hStarts
  obtain ⟨o, rfl, hThread, -⟩ := h.starts u (by simpa using hStarts)
  have hOwn : (o.isRun && decide (o.thread = t)) = true := hOrderly
  simp only [Bool.and_eq_true, decide_eq_true_eq] at hOwn
  exact hu (hThread.symm.trans hOwn.2)

theorem Guarded.none_starts (h : Guarded s none) (t : Fin n) : (s.tasks t).starts = false := by
  by_contra hStarts
  cases (h.starts t (by simpa using hStarts)).isSome

theorem stepTask_guarded (h : Guarded s owner) (hMutex : Mutex s)
    (hReady : s.ready (s.tasks t) = true) (hOrderly : orderlyTask s owner t (s.tasks t) = true) :
    Guarded (s.stepTask held t) (ownerAfterTask owner s t) := by
  have hChecks := h.check_fails (t := t) hMutex hOrderly
  have hAlone (closing : Bool) (hTask : s.tasks t = .resetHold closing) :=
    hMutex.reset_alone hTask hOrderly
  unfold stepTask ownerAfterTask
  cases hTask : s.tasks t <;> rw [hTask] at hReady hOrderly hChecks
  case returned code => cases hReady
  case startCheck entry =>
    dsimp only
    split
    · exact h.passes rfl rfl (absurd · Bool.false_ne_true) (by rw [hTask]; rfl)
    · exact h.begins rfl (fun hSome => ‹¬ _› (hChecks hSome rfl)) (.inr rfl)
  case runCheck entry polls =>
    dsimp only
    split
    · exact h.passes rfl rfl (absurd · Bool.false_ne_true) (by rw [hTask]; rfl)
    · exact h.begins rfl (fun hSome => ‹¬ _› (hChecks hSome rfl)) (.inl rfl)
  case startCancel entry => exact h.moves rfl (fun _ => by rw [hTask]; rfl) fun _ => .inr (.inl rfl)
  case startSet entry => exact h.moves rfl (fun _ => by rw [hTask]; rfl) fun _ => .inl rfl
  case startRelease => exact h.releases rfl rfl (by rw [hTask]; rfl) (by rw [hTask]; rfl) rfl
  case runRelease polls =>
    refine h.releases rfl rfl (by rw [hTask]; rfl) (by rw [hTask]; rfl) ?_
    cases polls <;> rfl
  case resetClear closing =>
    exact h.moves rfl (absurd · Bool.false_ne_true) fun _ => .inr (.inl rfl)
  case resetCancel closing =>
    exact h.moves rfl (absurd · Bool.false_ne_true) fun _ => .inr (.inl rfl)
  case resetHold closing =>
    refine guarded_free rfl ?_ (hAlone closing hTask)
    cases closing <;> rfl
  case runClear status => exact h.runClear hOrderly
  case pollClear status =>
    obtain rfl : owner = none := Option.isNone_iff_eq_none.mp hOrderly
    exact guarded_free rfl rfl fun u _ => h.none_starts u
  case runPoll more =>
    refine h.passes rfl rfl ?_ (by rw [hTask]; rfl)
    cases more with
    | zero => exact (absurd · Bool.false_ne_true)
    | succ more =>
      rw [afterPoll]
      split <;> exact (absurd · Bool.false_ne_true)
  case openCheck =>
    dsimp only
    split <;> exact h.passes rfl rfl (absurd · Bool.false_ne_true) (by rw [hTask]; rfl)
  case pollRead =>
    refine h.passes rfl rfl ?_ (by rw [hTask]; rfl)
    split <;> exact (absurd · Bool.false_ne_true)
  case releaseCheck =>
    refine h.passes rfl rfl ?_ (by rw [hTask]; rfl)
    split <;> exact (absurd · Bool.false_ne_true)
  -- the steps that change neither the flag nor the owner
  all_goals exact h.passes rfl rfl (by rw [hTask]; exact id) (by rw [hTask]; rfl)

theorem step_guarded {move : Move n} (h : Guarded s owner) (hMutex : Mutex s)
    (hEnabled : s.Enabled move) (hOrderly : Orderly (s, owner) move) :
    Guarded (s.step held move) (ownerAfter owner s move) := by
  cases move with
  | call t op =>
    obtain ⟨hQuiet, _⟩ := hEnabled
    refine h.passes rfl rfl ?_ ?_
    · cases op with
      | start flags entry =>
        rw [enter]
        split <;> exact (absurd · Bool.false_ne_true)
      | _ => exact (absurd · Bool.false_ne_true)
    · cases hTask : s.tasks t with
      | returned code => rfl
      | _ =>
        rw [hTask] at hQuiet
        cases hQuiet
  | thread t => exact stepTask_guarded h hMutex hEnabled hOrderly
  | dequeue => exact ⟨h.owned, h.starts⟩
  | worker =>
    unfold step stepWorker
    cases hWorker : s.worker with
    | clear =>
      have hNone : owner = none := hOrderly hWorker
      subst hNone
      exact ⟨(absurd · Bool.false_ne_true), h.starts⟩
    | _ => exact ⟨h.owned, h.starts⟩
  | deviceEnds status =>
    refine ⟨fun hSome => h.owned ?_, fun t hStarts => ?_⟩
    · cases owner with
      | none => exact hSome
      | some o => rfl
    · -- a run that has not released the NPU does not end with the device
      obtain ⟨o, rfl, hThread, hHeld⟩ := h.starts t hStarts
      refine ⟨o, ?_, hThread, hHeld⟩
      simp [ownerAfter, Option.filter_some, hHeld]

/-- In an orderly run no two threads are on their way from a passed check to the release, and a
`START` or `RUN` whose check comes while a run owns the NPU returns `-EBUSY`. -/
theorem one_owner (held : Status → Status) (device : Npu) (moves : List (Move n))
    (hRun : Admits (fun x move => x.1.Enabled move ∧ Orderly x move) (ownedStep held)
      (probed n device, none) moves) :
    let x := moves.foldl (ownedStep held) (probed n device, none)
    (∀ t u, (x.1.tasks t).starts = true → (x.1.tasks u).starts = true → t = u) ∧
    ∀ t, Orderly x (.thread t) → x.2.isSome = true → (x.1.tasks t).isCheck = true →
      let x' := ownedStep held x (.thread t)
      x'.1.tasks t = .returned ebusy ∧ x'.2 = x.2 := by
  intro x
  have hInvariant : Mutex x.1 ∧ Guarded x.1 x.2 := by
    apply hRun.invariant (I := fun x => Mutex x.1 ∧ Guarded x.1 x.2)
    · exact ⟨mutex_probed device, nofun, fun _ hStarts => nomatch hStarts⟩
    · exact fun x move h hMove => ⟨step_mutex h.1 hMove.1, step_guarded h.2 h.1 hMove.1 hMove.2⟩
  obtain ⟨hMutex, hGuarded⟩ := hInvariant
  refine ⟨fun t u ht hu => (hGuarded.starts t ht).unique (hGuarded.starts u hu), ?_⟩
  intro t hOrderly hSome hCheck x'
  have hRunning := hGuarded.check_fails hMutex hOrderly hSome hCheck
  show (x.1.stepTask held t).tasks t = _ ∧ ownerAfterTask x.2 x.1 t = _
  unfold stepTask ownerAfterTask
  cases hTask : x.1.tasks t with
  | startCheck entry | runCheck entry polls => simp [hRunning, State.goto]
  | _ =>
    rw [hTask] at hCheck
    cases hCheck

def startedFirst : List (Move 2) :=
  [.call 0 .open, .thread 0, .call 0 (.start 0 0), .thread 0, .thread 0]

def runAfterSet : List (Move 2) := startedFirst ++ [.thread 0, .thread 0, .call 1 (.run 0 1)]

def runBeforeSet : List (Move 2) := startedFirst ++ [.call 1 (.run 0 1), .thread 1]

theorem one_owner_runAfterSet :
    let x := runAfterSet.foldl (ownedStep id) (probed 2 {}, none)
    (ownedStep id x (.thread 1)).1.tasks 1 = .returned ebusy :=
  ((one_owner id {} runAfterSet (by decide)).2 1 (by decide) (by decide) (by decide)).1

/-- The `RUN` passes its check although the `START` has passed its own, and both go on to
start the NPU. -/
theorem start_and_run_both_pass :
    let x := startedFirst.foldl (ownedStep id) (probed 2 {}, none)
    let x' := runBeforeSet.foldl (ownedStep id) (probed 2 {}, none)
    Admits Enabled (step id) (probed 2 {}) runBeforeSet ∧ x.2 = some ⟨0, false, false⟩ ∧
      x'.1.tasks 0 = .startCancel 0 ∧ x'.1.tasks 1 = .runPc 0 1 ∧ x'.2 = some ⟨1, true, false⟩ := by
  decide

-- A `RESET` before the register writes of a `RUN`: the `START` that follows it passes, and both
-- are on their way to the release.
example :
    let moves := [.call 0 .open, .thread 0, .call 0 (.run 0 1), .thread 0, .call 1 .reset] ++
      List.replicate 4 (.thread 1) ++ [.call 1 (.start 0 0)] ++ List.replicate 4 (.thread 1)
    let s := moves.foldl (step id) (probed 2 {})
    Admits Enabled (step id) (probed 2 {}) moves ∧
      (s.tasks 0).starts = true ∧ (s.tasks 1).starts = true := by
  decide

end State
end OpenNpux.Driver
