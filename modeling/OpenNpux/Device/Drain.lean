import OpenNpux.Device.Wakeup

/-!
# Draining the device

A draining device must signal as soon as it is quiet. Every entry point that can make it
quiet looks at the drain before it returns, except a write of `RESET_CONTROL`: one that
leaves a device without DMA no event leaves it waiting for a signal that nothing will
give. The results hold for both backends, through the few laws they share.
-/

namespace OpenNpux.Device.NPUDevice

open Lib Bridge

/-- The device waits for a drain that is over. -/
def Stuck {B : Type} (be : CoralBackend B) (d : NPUDevice B) : Prop :=
  d.drainState = .draining ∧ d.dmaQuiesced be = true

/-- What the drain relies on: MMIO leaves the requests of a backend alone, and takes its event
only by a word of `RESET_CONTROL` that stops it at that tick. -/
structure DrainLaws {B : Type} (be : CoralBackend B) (Inv : B → Prop) (stops : Nat → Nat → Bool) :
    Prop where
  keeps : ∀ now, Keeps be now Inv
  read : ∀ offset size b, be.hasPendingEvent (be.read offset size b).state = be.hasPendingEvent b ∧
    be.hasDmaRequest (be.read offset size b).state = be.hasDmaRequest b
  writeRequest : ∀ now offset size data b,
    be.hasDmaRequest (be.write now offset size data b).state = be.hasDmaRequest b
  writeStops : ∀ now offset size data b, Inv b → be.hasPendingEvent b = true →
    be.hasPendingEvent (be.write now offset size data b).state = false →
      offset = resetControlOffset ∧ size = 4 ∧ stops now (data.load 0 4) = true
  writeLocalExtmem : ∀ addr size data b,
    be.hasPendingEvent (be.writeLocalExtmem addr size data b).state = be.hasPendingEvent b ∧
      be.hasDmaRequest (be.writeLocalExtmem addr size data b).state = be.hasDmaRequest b

/-- A call that stops the execution of a draining device on which no DMA is under way. -/
def StopsWhileDraining {B : Type} (be : CoralBackend B) (stops : Nat → Nat → Bool)
    (p : NPUDeviceParams) (d : NPUDevice B) (c : Call) : Prop :=
  match c.entry with
  | .write addr size data => d.drainState = .draining ∧ d.dmaActive = false ∧
      be.hasDmaRequest d.backend = false ∧ isResetControl p addr size = true ∧
      stops (d.curTick + c.delay) (data.load 0 4) = true
  | _ => False

section Laws

variable {B : Type} {be : CoralBackend B} {Inv : B → Prop} {stops : Nat → Nat → Bool}
  {p : NPUDeviceParams} {d : NPUDevice B}

theorem settled_not_stuck (be : CoralBackend B) (d : NPUDevice B) : ¬ Stuck be (settled be d) := by
  rintro ⟨hDraining, hQuiet : d.dmaQuiesced be = true⟩
  simp only [settled, hQuiet, and_true] at hDraining
  split at hDraining
  · cases hDraining
  · contradiction

theorem stable_not_stuck (be : CoralBackend B) : Stable fun d => ¬ Stuck be d :=
  fun _ _ _ _ _ h => h

/-- The fields that decide about the drain are those of another state. -/
structure SameDrain (be : CoralBackend B) (d d' : NPUDevice B) : Prop where
  tick : d'.curTick = d.curTick
  state : d'.drainState = d.drainState
  active : d'.dmaActive = d.dmaActive
  request : be.hasDmaRequest d'.backend = be.hasDmaRequest d.backend
  pending : be.hasPendingEvent d'.backend = be.hasPendingEvent d.backend

theorem SameDrain.not_stuck {d' : NPUDevice B} (h : SameDrain be d d') (hd : ¬ Stuck be d) :
    ¬ Stuck be d' := by
  rintro ⟨hDraining, hQuiet⟩
  apply hd
  constructor
  · exact h.state.symm.trans hDraining
  · simpa [dmaQuiesced, h.active, h.request, h.pending] using hQuiet

theorem SameDrain.refl (be : CoralBackend B) (d : NPUDevice B) : SameDrain be d d :=
  ⟨rfl, rfl, rfl, rfl, rfl⟩

theorem stable_sameDrain (be : CoralBackend B) (d : NPUDevice B) (Inv : B → Prop) :
    Stable fun d' => SameDrain be d d' ∧ Inv d'.backend :=
  fun _ _ _ _ _ h => ⟨⟨h.1.tick, h.1.state, h.1.active, h.1.request, h.1.pending⟩, h.2⟩

theorem write_not_stuck (hLaws : DrainLaws be Inv stops) (addr size : Nat) (data : ByteMem)
    (hInv : Inv d.backend) (hd : ¬ Stuck be d)
    (hStop : ¬ (d.drainState = .draining ∧ d.dmaActive = false ∧
      be.hasDmaRequest d.backend = false ∧
      isResetControl p addr size = true ∧ stops d.curTick (data.load 0 4) = true)) :
    Prog.Ensures (fun _ => True) (write be p addr size data) d fun _ d' => ¬ Stuck be d' := by
  apply write_ensures (I := fun d' => SameDrain be d d' ∧ Inv d'.backend)
  · exact stable_not_stuck be
  · intro _
    apply syncHostToLocalExtmem_ensures trivial (stable_sameDrain be d Inv)
    · exact fun _ _ _ _ _ => trivial
    · exact fun _ _ _ _ _ _ => trivial
    · exact ⟨.refl be d, hInv⟩
    · intro data
      obtain ⟨hPending, hRequest⟩ :=
        hLaws.writeLocalExtmem (syncExtmemAddr p) p.fastDmaSyncSize data d.backend
      exact ⟨⟨rfl, rfl, rfl, hRequest, hPending⟩,
        (hLaws.keeps d.curTick).writeLocalExtmem _ _ data _ hInv⟩
  · exact ⟨.refl be d, hInv⟩
  · exact fun _ _ _ _ => trivial
  · rintro d' ⟨hSame, hInv'⟩ accepted _
    rintro ⟨hDraining : d'.drainState = .draining, hQuiet⟩
    have hRequest := hLaws.writeRequest d'.curTick (pioOffset p addr) size data d'.backend
    simp only [dmaQuiesced, rescheduled, Bool.and_eq_true, Bool.not_eq_true', hRequest,
      hSame.active, hSame.request] at hQuiet
    obtain ⟨⟨hFree, hNone⟩, hOver⟩ := hQuiet
    cases hPending : be.hasPendingEvent d.backend with
    | false =>
      exact hd ⟨hSame.state.symm.trans hDraining, by simp [dmaQuiesced, hFree, hNone, hPending]⟩
    | true =>
      -- the device was busy with its event alone, and this write has stopped it
      obtain ⟨hOffset, hSize, hStops⟩ :=
        hLaws.writeStops _ _ _ _ _ hInv' (hSame.pending.trans hPending) hOver
      rw [hSame.tick] at hStops
      exact hStop ⟨hSame.state.symm.trans hDraining, hFree,
        hNone, by simp [isResetControl, hOffset, hSize], hStops⟩

theorem call_not_stuck (hLaws : DrainLaws be Inv stops) {c : Call} (hInv : Inv d.backend)
    (hd : ¬ Stuck be d) (hStop : ¬ StopsWhileDraining be stops p d c) :
    Prog.Ensures (fun _ => True) (call be p c) d fun _ d' => ¬ Stuck be d' := by
  obtain ⟨delay, entry⟩ := c
  apply Prog.Ensures.modify_bind
  cases entry with
  | read addr size =>
    obtain ⟨hPending, hRequest⟩ := hLaws.read (pioOffset p addr) size d.backend
    apply Prog.Ensures.bind (Q := fun _ d' => ¬ Stuck be d')
    · apply read_ensures
      · exact fun _ _ => trivial
      · exact fun _ _ _ => hd
      · intro _ _
        have hSame : SameDrain be { d with curTick := d.curTick + delay } (rescheduled be { d with
            curTick := d.curTick + delay
            backend := (be.read (pioOffset p addr) size d.backend).state }) :=
          ⟨rfl, rfl, rfl, hRequest, hPending⟩
        exact hSame.not_stuck hd
    · exact fun _ _ h => .pure h
  | write addr size data =>
    apply Prog.Ensures.bind
      (write_not_stuck (d := { d with curTick := d.curTick + delay }) hLaws addr size data
        hInv hd hStop)
    exact fun _ _ h => .pure h
  | backendEvent =>
    apply Prog.Ensures.modify_bind
    apply processBackendEvent_ensures (I := fun _ => True) (J := fun _ => True)
    · exact .trivial
    · exact fun _ _ => .trivial
    · trivial
    · exact fun d _ => settled_not_stuck be d
  | dmaCallback data =>
    apply Prog.Ensures.modify_bind
    apply completeBackendDma_ensures (fun _ => trivial) trivial data
    exact fun b _ _ _ => settled_not_stuck be _
  | drain =>
    apply Prog.Ensures.modify
    rintro ⟨hDraining, hQuiet⟩
    have hAlready : dmaQuiesced be { d with curTick := d.curTick + delay } = true := hQuiet
    simp [hAlready] at hDraining
  | resume =>
    apply Prog.Ensures.modify
    rintro ⟨hDraining, _⟩
    cases hDraining
  | hostStore addr size data => exact .modify hd

end Laws

/-! ## The two backends -/

/-- In reset the stage-A backend has no event. -/
def IdleInReset (b : CoralStageABackend) : Prop :=
  hasBit b.resetControl resetBit = true → b.pendingEventTick = 0

theorem writeCsr_cases {a : StageAParams} {now offset size value : Nat} {b b' : CoralStageABackend}
    (hCsr : CoralStageABackend.inCsr offset size = true)
    (hWritten : b.writeCsr a now offset size value = some b') :
    b'.resetControl = b.resetControl ∧ b'.pendingEventTick = b.pendingEventTick ∨
      (offset = resetControlOffset ∧ size = 4) ∧ b' = b.writeResetControl a now value := by
  simp only [CoralStageABackend.inCsr, Bool.and_eq_true, decide_eq_true_eq] at hCsr
  unfold CoralStageABackend.writeCsr at hWritten
  split at hWritten
  · cases hWritten
  · rename_i hAccess
    simp only [CoralStageABackend.csrAccess, Bool.not_eq_true', Bool.not_eq_false, Bool.and_eq_true,
      beq_iff_eq] at hAccess
    split at hWritten
    · rename_i hZero
      cases hWritten
      have hOffset : offset = CoralStageABackend.csrOffset := by omega
      exact .inr ⟨⟨hOffset, hAccess.1⟩, rfl⟩
    · cases hWritten
      exact .inl ⟨rfl, rfl⟩
    · cases hWritten

theorem stageA_read (a : StageAParams) (offset size : Nat) (b : CoralStageABackend) :
    ((stageA a).read offset size b).state = b := by
  simp only [stageA, CoralStageABackend.read, Prog.get_bind]
  split
  · rfl
  · split
    · rfl
    · split <;> rfl

theorem written_cases {a : StageAParams} {now offset size : Nat} {data : ByteMem}
    {b b' : CoralStageABackend} (hWritten : b.written a now offset size data = some b') :
    b'.resetControl = b.resetControl ∧ b'.pendingEventTick = b.pendingEventTick ∨
      (offset = resetControlOffset ∧ size = 4) ∧
        b' = b.writeResetControl a now (data.load 0 4) := by
  unfold CoralStageABackend.written at hWritten
  split at hWritten
  · obtain rfl := Option.some.inj hWritten
    exact .inl ⟨rfl, rfl⟩
  · split at hWritten
    · obtain rfl := Option.some.inj hWritten
      exact .inl ⟨rfl, rfl⟩
    · split at hWritten
      · exact writeCsr_cases ‹_› hWritten
      · cases hWritten

theorem stageA_write (a : StageAParams) (now offset size : Nat) (data : ByteMem)
    (b : CoralStageABackend) :
    let b' := ((stageA a).write now offset size data b).state
    b'.resetControl = b.resetControl ∧ b'.pendingEventTick = b.pendingEventTick ∨
      (offset = resetControlOffset ∧ size = 4) ∧
        b' = b.writeResetControl a now (data.load 0 4) := by
  simp only [stageA, CoralStageABackend.write]
  cases hWritten : b.written a now offset size data with
  | none => exact .inl ⟨rfl, rfl⟩
  | some b' => exact written_cases hWritten

theorem idleInReset_writeResetControl (a : StageAParams) (now value : Nat)
    {b : CoralStageABackend} :
    IdleInReset (b.writeResetControl a now value) := by
  intro hReset
  unfold CoralStageABackend.writeResetControl at hReset ⊢
  simp only at hReset ⊢
  split
  · rfl
  · rename_i hBit
    rw [if_neg hBit] at hReset
    split at hReset <;> exact absurd hReset hBit

theorem writeResetControl_stops {a : StageAParams} {now value : Nat} {b : CoralStageABackend}
    (hInv : IdleInReset b) (hPending : b.pendingEventTick ≠ 0)
    (hOver : (b.writeResetControl a now value).pendingEventTick = 0) :
    hasBit value resetBit = true := by
  by_contra hRuns
  have hBit : ¬ hasBit (value % 4) resetBit = true := by
    simp only [hasBit, resetBit, beq_iff_eq] at hRuns ⊢
    omega
  have hOld : ¬ hasBit b.resetControl resetBit = true := fun hReset => hPending (hInv hReset)
  simp only [CoralStageABackend.writeResetControl, if_neg hBit, hOld, Bool.false_and,
    Bool.false_eq_true, if_false] at hOver
  exact hPending hOver

theorem stageA_drainLaws (a : StageAParams) :
    DrainLaws (stageA a) IdleInReset fun _ value => hasBit value resetBit where
  keeps now :=
    { read := fun offset size b h => by
        rw [stageA_read]
        exact h
      write := fun offset size data b h => by
        rcases stageA_write a now offset size data b with ⟨hControl, hPending⟩ | ⟨_, hState⟩
        · intro hReset
          rw [hControl] at hReset
          exact hPending.trans (h hReset)
        · rw [hState]
          exact idleInReset_writeResetControl a now _
      processEvent := fun _ _ _ _ => rfl
      dmaRequest := fun _ h => h
      completeDma := fun _ _ _ _ h => h
      readLocalExtmem := fun _ _ _ h => h
      writeLocalExtmem := fun _ _ _ _ h => h }
  read offset size b := by
    rw [stageA_read]
    exact ⟨rfl, rfl⟩
  writeRequest _ _ _ _ _ := rfl
  writeStops now offset size data b hInv hPending hOver := by
    have hPending : b.pendingEventTick ≠ 0 := bne_iff_ne.mp hPending
    have hOver : ((stageA a).write now offset size data b).state.pendingEventTick = 0 := by
      simpa [stageA] using hOver
    rcases stageA_write a now offset size data b with ⟨_, hSame⟩ | ⟨⟨hOffset, hSize⟩, hState⟩
    · exact absurd (hSame.symm.trans hOver) hPending
    · rw [hState] at hOver
      exact ⟨hOffset, hSize, writeResetControl_stops hInv hPending hOver⟩
  writeLocalExtmem _ _ _ _ := ⟨rfl, rfl⟩

/-- The write leaves the Verilated backend no event: a bit is set, or the sum of the tick and
the period wraps to zero. -/
def leavesNoEvent (v : VerilatedParams) (now value : Nat) : Bool :=
  value % 4 != 0 || tickAfter now v.rtlTickPeriod == 0

theorem verilated_drainLaws {M : Type} (br : CoralBridge M) (v : VerilatedParams) :
    DrainLaws (verilated br v) (fun _ => True) (leavesNoEvent v) where
  keeps _ := ⟨fun _ _ _ h => h, fun _ _ _ _ h => h, fun _ h _ => h, fun _ h => h,
    fun _ _ _ _ h => h, fun _ _ _ h => h, fun _ _ _ _ h => h⟩
  read offset size b := by
    obtain ⟨_, _, hRead⟩ := verilated_read br v offset size b
    rw [hRead]
    exact ⟨rfl, rfl⟩
  writeRequest now offset size data b := by
    obtain ⟨_, ⟨_, hWrite⟩ | ⟨_, hWrite⟩⟩ := verilated_write br v now offset size data b
    all_goals
      rw [hWrite]
      rfl
  writeStops now offset size data b _ hPending hOver := by
    obtain ⟨_, ⟨_, hWrite⟩ | ⟨⟨hOffset, hSize⟩, hWrite⟩⟩ :=
      verilated_write br v now offset size data b
    all_goals rw [hWrite] at hOver
    · have hOver : (verilated br v).hasPendingEvent b = false := hOver
      rw [hPending] at hOver
      cases hOver
    · refine ⟨hOffset, hSize, ?_⟩
      cases hBits : data.load 0 4 % 4 != 0 with
      | true => rw [leavesNoEvent, hBits, Bool.true_or]
      | false =>
        have hValue : data.load 0 4 % 4 = 0 := by simpa using hBits
        simpa [leavesNoEvent, hBits, verilated, CoralVerilatedBackend.writeResetControl, hValue,
          hasBit] using hOver
  writeLocalExtmem addr size data b := by
    obtain ⟨_, _, _, hWrite, _⟩ := verilated_writeLocalExtmem br v addr size data b
    rw [hWrite]
    exact ⟨rfl, rfl⟩

/-! ## Runs -/

theorem run_not_stuck {B : Type} {be : CoralBackend B} {Inv : B → Prop} {stops : Nat → Nat → Bool}
    {p : NPUDeviceParams} (hLaws : DrainLaws be Inv stops) {d : NPUDevice B} {cs : List Call}
    (hInv : Inv d.backend) (hd : ¬ Stuck be d)
    (hRun : Admits (fun d c => Legal be p d c ∧
      ¬ StopsWhileDraining be stops p d c) (next be p) d cs) :
    ¬ Stuck be (cs.foldl (next be p) d) := by
  have hBoth : Inv (cs.foldl (next be p) d).backend ∧ ¬ Stuck be (cs.foldl (next be p) d) := by
    apply hRun.invariant (I := fun d => Inv d.backend ∧ ¬ Stuck be d) ⟨hInv, hd⟩
    rintro d c ⟨hInv, hd⟩ ⟨⟨_, hReturned⟩, hStop⟩
    have hCall : Prog.Ensures (fun _ => True) (call be p c) d
        fun _ d' => Inv d'.backend ∧ ¬ Stuck be d' := by
      apply Prog.Ensures.and
      · exact .modify_bind (enter_keeps (hLaws.keeps _) c.entry hInv)
      · exact call_not_stuck hLaws hInv hd hStop
    exact hCall.2 () hReturned
  exact hBoth.2

theorem drain_finishes_unless_stopped (p : NPUDeviceParams) (memory : ByteMem) (cs : List Call) :
    (∀ a : StageAParams,
      Admits (fun d c => Legal (stageA a) p d c ∧
          ¬ StopsWhileDraining (stageA a) (fun _ value => hasBit value resetBit) p d c)
        (next (stageA a) p) (constructed {} memory) cs →
      ¬ Stuck (stageA a) (cs.foldl (next (stageA a) p) (constructed {} memory))) ∧
    ∀ (M : Type) (br : CoralBridge M) (v : VerilatedParams) (model : M),
      Admits (fun d c => Legal (verilated br v) p d c ∧
          ¬ StopsWhileDraining (verilated br v) (leavesNoEvent v) p d c)
        (next (verilated br v) p) (constructed { model } memory) cs →
      ¬ Stuck (verilated br v) (cs.foldl (next (verilated br v) p)
        (constructed { model } memory)) := by
  constructor
  · intro a hRun
    apply run_not_stuck (stageA_drainLaws a) _ _ hRun
    · exact fun _ => rfl
    · rintro ⟨hDraining, _⟩
      cases hDraining
  · intro M br v model hRun
    apply run_not_stuck (verilated_drainLaws br v) trivial _ hRun
    rintro ⟨hDraining, _⟩
    cases hDraining

instance {B : Type} (be : CoralBackend B) (stops : Nat → Nat → Bool) (p : NPUDeviceParams)
    (d : NPUDevice B) (c : Call) : Decidable (StopsWhileDraining be stops p d c) := by
  unfold StopsWhileDraining
  split <;> infer_instance

instance {B : Type} (be : CoralBackend B) (d : NPUDevice B) : Decidable (Stuck be d) :=
  inferInstanceAs (Decidable (_ ∧ _))

/-- A drain that waits for a read and is over with its callback after a reset. -/
def drainedRead : List Call :=
  [⟨10, resetControlWrite 0⟩, ⟨1000, .backendEvent⟩, ⟨5, .drain⟩, ⟨5, resetControlWrite 1⟩,
    ⟨5, .dmaCallback fun _ => 0⟩]

theorem drainedRead_admitted :
    Admits (fun d c => Legal (verilated (scriptedBridge firstRead) verilatedDefaults) timingParams d
        c ∧ ¬ StopsWhileDraining (verilated (scriptedBridge firstRead) verilatedDefaults)
          (leavesNoEvent verilatedDefaults) timingParams d c)
      (next (verilated (scriptedBridge firstRead) verilatedDefaults) timingParams)
      (scriptedDevice [(1, 2)]) drainedRead := by decide

theorem drain_finishes_drainedRead :
    ¬ Stuck (verilated (scriptedBridge firstRead) verilatedDefaults) (drainedRead.foldl
      (next (verilated (scriptedBridge firstRead) verilatedDefaults) timingParams)
      (scriptedDevice [(1, 2)])) :=
  (drain_finishes_unless_stopped timingParams _ drainedRead).2 Script (scriptedBridge firstRead)
    verilatedDefaults _ drainedRead_admitted

/-- A guest resets the device while it drains. -/
def resetWhileDraining : List Call :=
  [⟨10, resetControlWrite 0⟩, ⟨5, .drain⟩, ⟨5, resetControlWrite 1⟩]

theorem drain_lost_to_reset :
    (¬ ∀ (a : StageAParams) (p : NPUDeviceParams) (memory : ByteMem) (cs : List Call),
      Admits (Legal (stageA a) p) (next (stageA a) p) (constructed {} memory) cs →
      ¬ Stuck (stageA a) (cs.foldl (next (stageA a) p) (constructed {} memory))) ∧
    ¬ ∀ (br : CoralBridge Unit) (v : VerilatedParams), v.Accepted →
      ∀ (p : NPUDeviceParams) (memory : ByteMem) (cs : List Call),
      Admits (Legal (verilated br v) p) (next (verilated br v) p)
        (constructed { model := () } memory) cs →
      ¬ Stuck (verilated br v)
        (cs.foldl (next (verilated br v) p) (constructed { model := () } memory)) := by
  constructor
  · intro h
    exact h stageADefaults timingParams (fun _ => 0) resetWhileDraining (by decide) (by decide)
  · intro h
    exact h idleBridge verilatedDefaults ⟨by decide, by decide⟩ timingParams (fun _ => 0)
      resetWhileDraining (by decide) (by decide)

end OpenNpux.Device.NPUDevice
