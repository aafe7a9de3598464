import OpenNpux.Gemmini.Driver

/-!
# The buffers of a running request

The thread that holds the mutex has the only buffers, and the device runs for no other
thread. So the buffers outlive the transfers if the wait does: a wait that gives up on a
device which is still processing frees them under it, and the next request then writes to
the registers of a busy device, which panics.
-/

namespace OpenNpux.Gemmini

open Lib

/-! ## What the thread with the mutex has -/

def Call.buffers (call : Call) : List DmaBuffer :=
  (call.mDma.map fun addr => ⟨addr, call.sizes.m⟩).toList ++
    (call.kDma.map fun addr => ⟨addr, call.sizes.k⟩).toList ++
      (call.oDma.map fun addr => ⟨addr, call.sizes.o⟩).toList

structure Call.Complete (call : Call) : Prop where
  matrix : call.mDma ≠ none
  kernel : call.sizes.k ≠ 0 → call.kDma ≠ none
  output : call.oDma ≠ none

/-- Which buffers a step of the operation finds. -/
def Task.Shape : Task → Prop
  | .returned _ => True
  | .lock call | .allocM call | .unlock call =>
    call.mDma = none ∧ call.kDma = none ∧ call.oDma = none
  | .allocK call => call.mDma ≠ none ∧ call.kDma = none ∧ call.oDma = none
  | .allocO call => call.mDma ≠ none ∧ (call.sizes.k ≠ 0 → call.kDma ≠ none) ∧ call.oDma = none
  | .copyM call | .copyK call | .writeReg call _ | .readStatus call | .checkTime call
  | .copyOut call => call.Complete
  | .freeO _ => True
  | .freeK call => call.oDma = none
  | .freeM call => call.kDma = none ∧ call.oDma = none

def Task.call? : Task → Option Call
  | .returned _ => none
  | .lock call | .allocM call | .allocK call | .allocO call | .copyM call | .copyK call
  | .writeReg call _ | .readStatus call | .checkTime call | .copyOut call | .freeO call
  | .freeK call | .freeM call | .unlock call => some call

def Task.critical : Task → Bool
  | .returned _ | .lock _ => false
  | _ => true

def Task.atClock : Task → Bool
  | .checkTime _ => true
  | _ => false

/-- What the device does while the thread with the mutex is at this step. -/
def Task.Device (device : GemminiDevA) : Task → Prop
  | .writeReg call ridx => ridx ≤ 6 ∧ device.Idle ∧
      device.Loaded call.req call.sizes call.operands ridx
  | .readStatus call | .checkTime call =>
      device.Idle ∨ ∃ stage, device.Processing call.req call.sizes call.operands stage
  | _ => device.Idle

namespace State

variable {n : Nat} (sizeMax : Nat)

/-- The thread that has the mutex has the buffers and the device. -/
structure Sound (s : State n) : Prop where
  accepted : ∀ t call, (s.tasks t).call? = some call →
    calcSizes sizeMax call.req = some call.sizes
  shapes : ∀ t, (s.tasks t).Shape
  owner : ∀ t, (s.tasks t).critical = true ↔ s.lock = some t
  unlocked : s.lock = none → s.live = [] ∧ s.device.Idle
  held : ∀ t call, s.lock = some t → (s.tasks t).call? = some call → s.live.Perm call.buffers
  device : ∀ t, s.lock = some t → (s.tasks t).Device s.device
  quiet : s.panicked = false

variable {sizeMax} {s : State n} {t : Fin n}

variable {task task' : Task} {call call' : Call}

theorem Sound.update (h : s.Sound sizeMax) (hOthers : ∀ u, u ≠ t → (s.tasks u).critical = false)
    (task : Task) (hAccepted : ∀ call, task.call? = some call →
      calcSizes sizeMax call.req = some call.sizes) (hShape : task.Shape)
    {live : List DmaBuffer} {device : GemminiDevA}
    (hHeld : task.critical = true → task.Device device ∧
      ∀ call, task.call? = some call → live.Perm call.buffers)
    (hUnlocked : task.critical = false → live = [] ∧ device.Idle) :
    ({ s with lock := if task.critical then some t else none, live, device }.goto t task).Sound
      sizeMax := by
  have hTasks (u : Fin n) : Function.update s.tasks t task u = if u = t then task else s.tasks u :=
    Function.update_apply s.tasks t task u
  have hLocked {u : Fin n} (hOwner : (if task.critical then some t else none) = some u) :
      task.critical = true ∧ t = u := by
    split at hOwner
    · exact ⟨‹_›, Option.some.inj hOwner⟩
    · cases hOwner
  constructor
  · intro u call hu
    dsimp only [goto] at hu
    rw [hTasks] at hu
    split at hu
    · exact hAccepted call hu
    · exact h.accepted u call hu
  · intro u
    dsimp only [goto]
    rw [hTasks]
    split
    · exact hShape
    · exact h.shapes u
  · intro u
    dsimp only [goto]
    rw [hTasks]
    split
    · rename_i hSame
      rw [hSame]
      cases task.critical <;> simp
    · rename_i hOther
      refine iff_of_false (by simp [hOthers u hOther]) fun hOwner => hOther (hLocked hOwner).2.symm
  · intro hNone
    apply hUnlocked
    dsimp only [goto] at hNone
    split at hNone
    · cases hNone
    · exact Bool.eq_false_of_not_eq_true ‹_›
  · intro u call hOwner hu
    obtain ⟨hCritical, rfl⟩ := hLocked hOwner
    dsimp only [goto] at hu
    rw [hTasks, if_pos rfl] at hu
    exact (hHeld hCritical).2 call hu
  · intro u hOwner
    obtain ⟨hCritical, rfl⟩ := hLocked hOwner
    dsimp only [goto]
    rw [hTasks, if_pos rfl]
    exact (hHeld hCritical).1
  · exact h.quiet

/-- The thread `t` has the mutex and is at `task`. -/
structure Owned (sizeMax : Nat) (s : State n) (t : Fin n) (task : Task) (call : Call) : Prop where
  sound : s.Sound sizeMax
  at_task : s.tasks t = task
  lock : s.lock = some t
  accepted : calcSizes sizeMax call.req = some call.sizes
  shape : task.Shape
  live : s.live.Perm call.buffers
  device : task.Device s.device

theorem Sound.owned (h : s.Sound sizeMax) (hTask : s.tasks t = task)
    (hCritical : task.critical = true) (hCall : task.call? = some call) :
    s.Owned sizeMax t task call := by
  subst hTask
  have hLock := (h.owner t).mp hCritical
  exact ⟨h, rfl, hLock, h.accepted t call hCall, h.shapes t, h.held t call hLock hCall,
    h.device t hLock⟩

theorem Owned.others (h : s.Owned sizeMax t task call) (u : Fin n) (hOther : u ≠ t) :
    (s.tasks u).critical = false := by
  refine Bool.eq_false_of_not_eq_true fun hCritical => hOther ?_
  exact Option.some.inj (((h.sound.owner u).mp hCritical).symm.trans h.lock)

/-! ## How a step goes on -/

theorem Owned.goto (h : s.Owned sizeMax t task call) (task' : Task)
    (hCall : task'.call? = some call') (hSame : call'.req = call.req ∧ call'.sizes = call.sizes)
    (hCritical : task'.critical = true) (hShape : task'.Shape) {live : List DmaBuffer}
    (hLive : live.Perm call'.buffers) {device : GemminiDevA} (hDevice : task'.Device device) :
    ({ s with live, device }.goto t task').Sound sizeMax := by
  have hSound := @Sound.update _ _ _ _ h.sound h.others task' ?_ hShape live device ?_ ?_
  · rwa [hCritical, if_pos rfl, ← h.lock] at hSound
  · intro call'' hCall'
    obtain rfl := Option.some.inj (hCall.symm.trans hCall')
    rw [hSame.1, hSame.2]
    exact h.accepted
  · refine fun _ => ⟨hDevice, fun call'' hCall' => ?_⟩
    obtain rfl := Option.some.inj (hCall.symm.trans hCall')
    exact hLive
  · intro hNot
    cases hCritical.symm.trans hNot

theorem Owned.keep (h : s.Owned sizeMax t task call) (task' : Task)
    (hCall : task'.call? = some call) (hCritical : task'.critical = true) (hShape : task'.Shape)
    (hDevice : task'.Device s.device) : (s.goto t task').Sound sizeMax :=
  h.goto task' hCall ⟨rfl, rfl⟩ hCritical hShape h.live hDevice

theorem Owned.fail (h : s.Owned sizeMax t task call) (hIdle : s.device.Idle) (code : Int) :
    (s.fail t call code).Sound sizeMax :=
  h.goto (.freeO { call with ret := code }) rfl ⟨rfl, rfl⟩ rfl trivial h.live hIdle

theorem Owned.allocate (h : s.Owned sizeMax t task call) (task' : Task)
    (hCall : task'.call? = some call') (hSame : call'.req = call.req ∧ call'.sizes = call.sizes)
    (hCritical : task'.critical = true) (hShape : task'.Shape) (hDevice : task'.Device s.device)
    {addr size : Nat} (hBuffers : call'.buffers = call.buffers ++ [⟨addr, size⟩]) :
    ((s.allocate addr size).goto t task').Sound sizeMax := by
  refine h.goto task' hCall hSame hCritical hShape ?_ hDevice
  rw [hBuffers]
  exact h.live.append_right _

theorem perm_erase_last {live rest : List DmaBuffer} {b : DmaBuffer} (h : live.Perm (rest ++ [b])) :
    (live.erase b).Perm rest := by
  have hErased := (h.trans List.perm_append_comm).erase b
  rwa [List.singleton_append, List.erase_cons_head] at hErased

theorem Owned.release (h : s.Owned sizeMax t task call) (task' : Task)
    (hCall : task'.call? = some call') (hSame : call'.req = call.req ∧ call'.sizes = call.sizes)
    (hCritical : task'.critical = true) (hShape : task'.Shape) (hDevice : task'.Device s.device)
    {addr : Option Nat} {size : Nat}
    (hBuffers : call.buffers = call'.buffers ++ (addr.map (DmaBuffer.mk · size)).toList) :
    ((s.free addr size).goto t task').Sound sizeMax := by
  have hLive := h.live
  rw [hBuffers] at hLive
  cases addr with
  | none => exact h.goto task' hCall hSame hCritical hShape (by simpa using hLive) hDevice
  | some addr => exact h.goto task' hCall hSame hCritical hShape (perm_erase_last hLive) hDevice

/-! ## The steps of a thread -/

/-- In a step at which the time is up the device has finished. -/
def InTime (s : State n) : Move n → Prop
  | .thread t answer => (s.tasks t).atClock = true → answer.expired = true → s.device.piStatus ≠ 0
  | .ioctl .. | .transferEnds _ => True

instance (s : State n) : (move : Move n) → Decidable (s.InTime move)
  | .thread t answer => inferInstanceAs (Decidable ((s.tasks t).atClock = true →
      answer.expired = true → s.device.piStatus ≠ 0))
  | .ioctl .. | .transferEnds _ => inferInstanceAs (Decidable True)

section Thread

variable {answer : Answer}

theorem Sound.lock (h : s.Sound sizeMax) (hTask : s.tasks t = .lock call) (hFree : s.lock = none) :
    (s.stepTask t answer).Sound sizeMax := by
  have hOthers (u : Fin n) : (s.tasks u).critical = false := by
    refine Bool.eq_false_of_not_eq_true fun hCritical => ?_
    cases ((h.owner u).mp hCritical).symm.trans hFree
  have hShape := h.shapes t
  have hAccepted := h.accepted t
  rw [hTask] at hShape hAccepted
  obtain ⟨hM, hK, hO⟩ := hShape
  obtain ⟨hLive, hIdle⟩ := h.unlocked hFree
  unfold stepTask
  rw [hTask]
  refine h.update (fun u _ => hOthers u) (.allocM call) hAccepted ⟨hM, hK, hO⟩ ?_ ?_
  · refine fun _ => ⟨hIdle, fun call' hCall => ?_⟩
    obtain rfl := Option.some.inj hCall
    rw [hLive]
    simp [Call.buffers, hM, hK, hO]
  · intro hNot
    cases hNot

theorem Owned.unlock (h : s.Owned sizeMax t (.unlock call) call) :
    (s.stepTask t answer).Sound sizeMax := by
  obtain ⟨hM, hK, hO⟩ := h.shape
  have hLive := h.live
  simp only [Call.buffers, hM, hK, hO, Option.map_none, Option.toList_none,
    List.append_nil] at hLive
  unfold stepTask
  rw [h.at_task]
  refine h.sound.update h.others (.returned call.ret) ?_ trivial ?_ fun _ =>
    ⟨hLive.eq_nil, h.device⟩
  · intro call' hCall
    cases hCall
  · intro hNot
    cases hNot

theorem Owned.allocM (h : s.Owned sizeMax t (.allocM call) call) :
    (s.stepTask t answer).Sound sizeMax := by
  obtain ⟨hM, hK, hO⟩ := h.shape
  unfold stepTask
  rw [h.at_task]
  cases answer.address with
  | none => exact h.fail h.device enomem
  | some addr =>
    have hBuffers : Call.buffers { call with mDma := some addr } =
        call.buffers ++ [⟨addr, call.sizes.m⟩] := by
      simp [Call.buffers, hM, hK, hO]
    dsimp only
    split
    · exact h.allocate (.allocK { call with mDma := some addr }) rfl ⟨rfl, rfl⟩ rfl
        ⟨Option.some_ne_none _, hK, hO⟩ h.device hBuffers
    · rename_i hNone
      exact h.allocate (.allocO { call with mDma := some addr }) rfl ⟨rfl, rfl⟩ rfl
        ⟨Option.some_ne_none _, fun hSome => absurd hSome hNone, hO⟩ h.device hBuffers

theorem Owned.allocK (h : s.Owned sizeMax t (.allocK call) call) :
    (s.stepTask t answer).Sound sizeMax := by
  obtain ⟨hM, hK, hO⟩ := h.shape
  unfold stepTask
  rw [h.at_task]
  cases answer.address with
  | none => exact h.fail h.device enomem
  | some addr =>
    exact h.allocate (.allocO { call with kDma := some addr }) rfl ⟨rfl, rfl⟩ rfl
      ⟨hM, fun _ => Option.some_ne_none _, hO⟩ h.device (by simp [Call.buffers, hK, hO])

theorem Owned.allocO (h : s.Owned sizeMax t (.allocO call) call) :
    (s.stepTask t answer).Sound sizeMax := by
  obtain ⟨hM, hK, hO⟩ := h.shape
  unfold stepTask
  rw [h.at_task]
  cases answer.address with
  | none => exact h.fail h.device enomem
  | some addr =>
    exact h.allocate (.copyM { call with oDma := some addr }) rfl ⟨rfl, rfl⟩ rfl
      ⟨hM, hK, Option.some_ne_none _⟩ h.device (by simp [Call.buffers, hO])

theorem Owned.copied (h : s.Owned sizeMax t task call) (hComplete : call.Complete)
    (hIdle : s.device.Idle) : (s.goto t (.writeReg call 0)).Sound sizeMax :=
  h.keep (.writeReg call 0) rfl rfl hComplete
    ⟨Nat.zero_le _, hIdle, fun i hi => absurd hi (Nat.not_lt_zero i)⟩

theorem Owned.copyM (h : s.Owned sizeMax t (.copyM call) call) :
    (s.stepTask t answer).Sound sizeMax := by
  unfold stepTask
  rw [h.at_task]
  dsimp only
  split
  · split
    · exact h.keep (.copyK call) rfl rfl h.shape h.device
    · exact h.copied h.shape h.device
  · exact h.fail h.device efault

theorem Owned.copyK (h : s.Owned sizeMax t (.copyK call) call) :
    (s.stepTask t answer).Sound sizeMax := by
  unfold stepTask
  rw [h.at_task]
  dsimp only
  split
  · exact h.copied h.shape h.device
  · exact h.fail h.device efault

theorem Owned.writeReg {ridx : Nat} (h : s.Owned sizeMax t (.writeReg call ridx) call) :
    (s.stepTask t answer).Sound sizeMax := by
  obtain ⟨hLe, hIdle, hLoaded⟩ := h.device
  unfold stepTask
  rw [h.at_task]
  dsimp only
  by_cases hLast : ridx = 6
  · subst hLast
    obtain ⟨d', hStarted, hProcessing⟩ := hLoaded.start hIdle h.accepted
    rw [show registerValue call.req call.sizes call.operands 6 = 1 from rfl, hStarted, if_pos rfl]
    exact h.goto (.readStatus call) rfl ⟨rfl, rfl⟩ rfl h.shape h.live (.inr ⟨_, hProcessing⟩)
  · obtain ⟨d', hWritten, hIdle', hLoaded'⟩ := hLoaded.write hIdle (by omega)
    rw [hWritten, if_neg hLast]
    exact h.goto (.writeReg call (ridx + 1)) rfl ⟨rfl, rfl⟩ rfl h.shape h.live
      ⟨by omega, hIdle', hLoaded'⟩

theorem Owned.readStatus (h : s.Owned sizeMax t (.readStatus call) call) :
    (s.stepTask t answer).Sound sizeMax := by
  unfold stepTask
  rw [h.at_task]
  dsimp only
  split
  · rename_i hDone
    refine h.keep (.copyOut call) rfl rfl h.shape ?_
    rcases h.device with hIdle | ⟨_, hProcessing⟩
    · exact hIdle
    · exact absurd hProcessing.status hDone
  · exact h.keep (.checkTime call) rfl rfl h.shape h.device

theorem Owned.checkTime (h : s.Owned sizeMax t (.checkTime call) call)
    (hInTime : answer.expired = true → s.device.piStatus ≠ 0) :
    (s.stepTask t answer).Sound sizeMax := by
  unfold stepTask
  rw [h.at_task]
  dsimp only
  split
  · rename_i hExpired
    refine h.fail ?_ etimedout
    rcases h.device with hIdle | ⟨_, hProcessing⟩
    · exact hIdle
    · exact absurd hProcessing.status (hInTime hExpired)
  · exact h.keep (.readStatus call) rfl rfl h.shape h.device

theorem Owned.copyOut (h : s.Owned sizeMax t (.copyOut call) call) :
    (s.stepTask t answer).Sound sizeMax := by
  unfold stepTask
  rw [h.at_task]
  exact h.fail h.device (if answer.copied then 0 else efault)

theorem Owned.freeO (h : s.Owned sizeMax t (.freeO call) call) :
    (s.stepTask t answer).Sound sizeMax := by
  unfold stepTask
  rw [h.at_task]
  exact h.release (.freeK { call with oDma := none }) rfl ⟨rfl, rfl⟩ rfl rfl h.device
    (by simp [Call.buffers])

theorem Owned.freeK (h : s.Owned sizeMax t (.freeK call) call) :
    (s.stepTask t answer).Sound sizeMax := by
  have hO : call.oDma = none := h.shape
  unfold stepTask
  rw [h.at_task]
  exact h.release (.freeM { call with kDma := none }) rfl ⟨rfl, rfl⟩ rfl ⟨rfl, hO⟩ h.device
    (by simp [Call.buffers, hO])

theorem Owned.freeM (h : s.Owned sizeMax t (.freeM call) call) :
    (s.stepTask t answer).Sound sizeMax := by
  obtain ⟨hK, hO⟩ := h.shape
  unfold stepTask
  rw [h.at_task]
  exact h.release (.unlock { call with mDma := none }) rfl ⟨rfl, rfl⟩ rfl ⟨rfl, hK, hO⟩ h.device
    (by simp [Call.buffers, hK, hO])

theorem Sound.thread (h : s.Sound sizeMax) (hReady : s.ready (s.tasks t) = true)
    (hInTime : s.InTime (.thread t answer)) : (s.stepTask t answer).Sound sizeMax := by
  unfold InTime at hInTime
  cases hTask : s.tasks t with
  | returned code =>
    rw [hTask] at hReady
    cases hReady
  | lock call =>
    rw [hTask] at hReady
    exact h.lock hTask (Option.isNone_iff_eq_none.mp hReady)
  | checkTime call => exact (h.owned hTask rfl rfl).checkTime (hInTime (by rw [hTask]; rfl))
  | allocM call => exact (h.owned hTask rfl rfl).allocM
  | allocK call => exact (h.owned hTask rfl rfl).allocK
  | allocO call => exact (h.owned hTask rfl rfl).allocO
  | copyM call => exact (h.owned hTask rfl rfl).copyM
  | copyK call => exact (h.owned hTask rfl rfl).copyK
  | writeReg call ridx => exact (h.owned hTask rfl rfl).writeReg
  | readStatus call => exact (h.owned hTask rfl rfl).readStatus
  | copyOut call => exact (h.owned hTask rfl rfl).copyOut
  | freeO call => exact (h.owned hTask rfl rfl).freeO
  | freeK call => exact (h.owned hTask rfl rfl).freeK
  | freeM call => exact (h.owned hTask rfl rfl).freeM
  | unlock call => exact (h.owned hTask rfl rfl).unlock

end Thread

/-! ## The other steps -/

theorem enter_cases (cmd : Nat) (request : Option Request) :
    (∃ code, enter sizeMax cmd request = .returned code) ∨
      ∃ req sizes, calcSizes sizeMax req = some sizes ∧
        enter sizeMax cmd request = .lock { req, sizes } := by
  unfold enter
  split
  · exact .inl ⟨_, rfl⟩
  · split
    · exact .inl ⟨_, rfl⟩
    · split
      · exact .inl ⟨_, rfl⟩
      · rename_i hSizes
        split
        · exact .inl ⟨_, rfl⟩
        · split
          · exact .inl ⟨_, rfl⟩
          · exact .inr ⟨_, _, hSizes, rfl⟩

theorem enter_sound (cmd : Nat) (request : Option Request) :
    (∀ call, (enter sizeMax cmd request).call? = some call →
      calcSizes sizeMax call.req = some call.sizes) ∧
      (enter sizeMax cmd request).Shape ∧ (enter sizeMax cmd request).critical = false := by
  rcases @enter_cases sizeMax cmd request with ⟨code, hTask⟩ | ⟨req, sizes, hSizes, hTask⟩
  · rw [hTask]
    refine ⟨fun call hCall => ?_, trivial, rfl⟩
    cases hCall
  · rw [hTask]
    refine ⟨fun call hCall => ?_, ⟨rfl, rfl, rfl⟩, rfl⟩
    obtain rfl := Option.some.inj hCall
    exact hSizes

theorem Sound.ioctl (h : s.Sound sizeMax) (hQuiet : (s.tasks t).quiet = true) (cmd : Nat)
    (request : Option Request) : (s.goto t (enter sizeMax cmd request)).Sound sizeMax := by
  have hTasks (u : Fin n) : Function.update s.tasks t (enter sizeMax cmd request) u =
      if u = t then enter sizeMax cmd request else s.tasks u :=
    Function.update_apply s.tasks t _ u
  have hNot : s.lock ≠ some t := by
    intro hLock
    have hCritical := (h.owner t).mpr hLock
    cases hTask : s.tasks t with
    | returned =>
      rw [hTask] at hCritical
      cases hCritical
    | lock | allocM | allocK | allocO | copyM | copyK | writeReg | readStatus | checkTime | copyOut
      | freeO | freeK | freeM | unlock =>
      rw [hTask] at hQuiet
      cases hQuiet
  have hOther {u : Fin n} (hOwner : s.lock = some u) : u ≠ t := by
    rintro rfl
    exact hNot hOwner
  obtain ⟨hAccepted, hShape, hOutside⟩ := @enter_sound sizeMax cmd request
  refine ⟨?_, ?_, ?_, h.unlocked, ?_, ?_, h.quiet⟩
  · intro u call hu
    dsimp only [goto] at hu
    rw [hTasks] at hu
    split at hu
    · exact hAccepted call hu
    · exact h.accepted u call hu
  · intro u
    dsimp only [goto]
    rw [hTasks]
    split
    · exact hShape
    · exact h.shapes u
  · intro u
    dsimp only [goto]
    rw [hTasks]
    split
    · rename_i hSame
      rw [hSame, hOutside]
      exact iff_of_false (by decide) hNot
    · exact h.owner u
  · intro u call hOwner hu
    dsimp only [goto] at hu
    rw [hTasks, if_neg (hOther hOwner)] at hu
    exact h.held u call hOwner hu
  · intro u hOwner
    dsimp only [goto]
    rw [hTasks, if_neg (hOther hOwner)]
    exact h.device u hOwner

/-- A device that is not idle works on a request that its thread waits for. -/
theorem Sound.waited (h : s.Sound sizeMax) (hBusy : ¬s.device.Idle) :
    ∃ t call stage, s.lock = some t ∧
      (s.tasks t = .readStatus call ∨ s.tasks t = .checkTime call) ∧
        s.device.Processing call.req call.sizes call.operands stage := by
  cases hLock : s.lock with
  | none => exact absurd (h.unlocked hLock).2 hBusy
  | some t =>
    have hDevice := h.device t hLock
    cases hTask : s.tasks t with
    | readStatus call =>
      rw [hTask] at hDevice
      rcases hDevice with hIdle | ⟨stage, hProcessing⟩
      · exact absurd hIdle hBusy
      · exact ⟨t, call, stage, rfl, .inl hTask, hProcessing⟩
    | checkTime call =>
      rw [hTask] at hDevice
      rcases hDevice with hIdle | ⟨stage, hProcessing⟩
      · exact absurd hIdle hBusy
      · exact ⟨t, call, stage, rfl, .inr hTask, hProcessing⟩
    | writeReg call ridx =>
      rw [hTask] at hDevice
      exact absurd hDevice.2.1 hBusy
    | returned | lock | allocM | allocK | allocO | copyM | copyK | copyOut | freeO | freeK | freeM
      | unlock =>
      rw [hTask] at hDevice
      exact absurd hDevice hBusy

theorem Sound.transferEnds (h : s.Sound sizeMax) {index : Nat}
    (hIndex : index < s.device.outstanding.length) :
    (s.device? (s.device.complete index)).Sound sizeMax := by
  have hBusy : ¬s.device.Idle := by
    intro hIdle
    rw [hIdle.quiet] at hIndex
    cases hIndex
  obtain ⟨t, call, stage, hLock, hTask, hProcessing⟩ := h.waited hBusy
  have hAccepted : calcSizes sizeMax call.req = some call.sizes := by
    refine h.accepted t call ?_
    rcases hTask with hTask | hTask <;> rw [hTask] <;> rfl
  have hFirst : index = 0 := by
    rw [hProcessing.waiting, List.length_singleton] at hIndex
    omega
  have hNext : ∃ d', s.device.complete 0 = some d' ∧
      (d'.Idle ∨ ∃ stage, d'.Processing call.req call.sizes call.operands stage) := by
    cases hStage : stage.next call.sizes with
    | none =>
      cases stage with
      | output =>
        obtain ⟨d', hDone, hIdle⟩ := hProcessing.finish
        exact ⟨d', hDone, .inl hIdle⟩
      | kernel => cases hStage
      | matrix =>
        simp only [GemminiDevA.Stage.next] at hStage
        split at hStage <;> cases hStage
    | some next =>
      obtain ⟨d', hDone, hMore⟩ := hProcessing.next hStage hAccepted
      exact ⟨d', hDone, .inr ⟨next, hMore⟩⟩
  obtain ⟨d', hDone, hDevice⟩ := hNext
  rw [hFirst, hDone]
  refine ⟨h.accepted, h.shapes, h.owner, ?_, h.held, ?_, h.quiet⟩
  · intro hNone
    cases hLock.symm.trans hNone
  · intro u hOwner
    obtain rfl := Option.some.inj (hLock.symm.trans hOwner)
    rcases hTask with hTask | hTask
    · dsimp only [device?]
      rw [hTask]
      exact hDevice
    · dsimp only [device?]
      rw [hTask]
      exact hDevice

/-! ## Runs -/

theorem Sound.step (h : s.Sound sizeMax) {move : Move n} (hEnabled : s.Enabled move)
    (hInTime : s.InTime move) : (s.step sizeMax move).Sound sizeMax := by
  cases move with
  | ioctl t cmd request =>
    exact h.ioctl hEnabled.2 cmd request
  | thread t answer => exact h.thread hEnabled.2 hInTime
  | transferEnds index => exact h.transferEnds hEnabled.2

theorem Sound.initial : Sound sizeMax ({} : State n) where
  accepted t call hCall := by cases hCall
  shapes t := trivial
  owner t := iff_of_false Bool.false_ne_true (fun hNone => by cases hNone)
  unlocked _ := ⟨rfl, rfl, rfl, rfl⟩
  held t call hLock := by cases hLock
  device t hLock := by cases hLock
  quiet := rfl

end State

def GemminiDevA.buffers (d : GemminiDevA) : List DmaBuffer :=
  [⟨d.piAddrM, d.sizes.m⟩, ⟨d.piAddrO, d.sizes.o⟩] ++
    if d.sizes.k ≠ 0 then [⟨d.piAddrK, d.sizes.k⟩] else []

/-- While the device is processing, its buffers are allocated and no thread is about to write
a register; the device has not panicked. -/
structure State.Safe {n : Nat} (s : State n) : Prop where
  allocated : s.device.piStatus = 0 → ∀ b ∈ s.device.buffers, b ∈ s.live
  writes : ∀ t call ridx, s.tasks t = .writeReg call ridx → s.device.piStatus ≠ 0
  quiet : s.panicked = false

theorem GemminiDevA.Processing.buffers {d : GemminiDevA} {call : Call} {stage : Stage}
    (h : d.Processing call.req call.sizes call.operands stage) (hComplete : call.Complete) :
    ∀ b ∈ d.buffers, b ∈ call.buffers := by
  obtain ⟨m, hM⟩ := Option.ne_none_iff_exists'.mp hComplete.matrix
  obtain ⟨o, hO⟩ := Option.ne_none_iff_exists'.mp hComplete.output
  have hAddrM : d.piAddrM = call.operands.m := h.loaded 0 (by decide)
  have hAddrO : d.piAddrO = call.operands.o := h.loaded 2 (by decide)
  intro b hb
  simp only [GemminiDevA.buffers, h.sizesKnown, hAddrM, hAddrO, Call.operands, hM, hO,
    Option.getD_some, List.mem_append, List.mem_cons, List.not_mem_nil, or_false] at hb
  simp only [Call.buffers, hM, hO, Option.map_some, Option.toList_some, List.mem_append,
    List.mem_singleton]
  rcases hb with (rfl | rfl) | hb
  · exact .inl (.inl rfl)
  · exact .inr rfl
  · split at hb
    · rename_i hK
      obtain ⟨k, hKernel⟩ := Option.ne_none_iff_exists'.mp (hComplete.kernel hK)
      have hAddrK : d.piAddrK = k := by
        rw [show d.piAddrK = _ from h.loaded 1 (by decide)]
        simp [registerValue, hK, Call.operands, hKernel]
      rw [List.mem_singleton, hAddrK] at hb
      simp [hKernel, hb]
    · cases hb

theorem State.Sound.safe {n sizeMax : Nat} {s : State n} (h : s.Sound sizeMax) : s.Safe := by
  refine ⟨fun hStatus b hb => ?_, fun t call ridx hTask => ?_, h.quiet⟩
  · have hBusy : ¬s.device.Idle := fun hIdle => by cases hStatus.symm.trans hIdle.status
    obtain ⟨t, call, stage, hLock, hTask, hProcessing⟩ := h.waited hBusy
    have hShape := h.shapes t
    have hLive := h.held t call hLock
    rcases hTask with hTask | hTask
    all_goals
      rw [hTask] at hShape hLive
      exact (hLive rfl).mem_iff.mpr (hProcessing.buffers hShape b hb)
  · obtain ⟨_, hIdle, _⟩ := (h.owned hTask rfl rfl).device
    rw [hIdle.status]
    decide

/-- In every run in which no wait gives up on a device that is still processing, the device's
buffers are allocated and its registers are written only while it is not processing. -/
theorem buffers_safe_of_inTime (n sizeMax : Nat) (moves : List (Move n))
    (hRun : Admits (fun s move => s.Enabled move ∧ s.InTime move) (State.step sizeMax) {} moves) :
    (moves.foldl (State.step sizeMax) {}).Safe :=
  (hRun.invariant .initial fun _ _ hSound hStep =>
    State.Sound.step hSound hStep.1 hStep.2).safe

def user : Fin 1 := ⟨0, Nat.zero_lt_one⟩

def startRelu : List (Move 1) :=
  [.ioctl user iocRun (some ⟨1, 0, 1, 1, 0, 6⟩), .thread user {},
    .thread user { address := some 0x1000 }, .thread user { address := some 0x2000 }] ++
      List.replicate 8 (.thread user {})

def finishedRelu : List (Move 1) :=
  startRelu ++ [.transferEnds 0, .transferEnds 0] ++ List.replicate 6 (.thread user {})

theorem buffers_safe_of_inTime_relu :
    (finishedRelu.foldl (State.step (2 ^ 64 - 1)) {}).Safe :=
  buffers_safe_of_inTime 1 (2 ^ 64 - 1) finishedRelu (by decide +kernel)

def lateRelu : List (Move 1) :=
  startRelu ++ [.thread user {}, .thread user { expired := true }] ++
    List.replicate 4 (.thread user {})

/-- The wait gives up and the buffers are freed, while the device reads from one of them; the
first register that the next request writes makes the device panic. -/
theorem timeout_frees_buffers :
    (Admits State.Enabled (State.step (2 ^ 64 - 1)) ({} : State 1) lateRelu ∧
        ¬(lateRelu.foldl (State.step (2 ^ 64 - 1)) {}).Safe) ∧
      Admits State.Enabled (State.step (2 ^ 64 - 1)) ({} : State 1) (lateRelu ++ startRelu.take 6) ∧
        ((lateRelu ++ startRelu.take 6).foldl (State.step (2 ^ 64 - 1)) {}).panicked = true := by
  refine ⟨⟨by decide +kernel, fun hSafe => ?_⟩, by decide +kernel, by decide +kernel⟩
  have hFreed : (lateRelu.foldl (State.step (2 ^ 64 - 1)) {}).live = [] := by decide +kernel
  have hNamed := hSafe.allocated (by decide +kernel) ⟨0x1000, 4⟩ (by decide +kernel)
  rw [hFreed] at hNamed
  cases hNamed

end OpenNpux.Gemmini
