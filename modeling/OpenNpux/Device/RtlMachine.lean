import OpenNpux.Bridge.Handle
import OpenNpux.Device.VerilatedBackend

/-!
# A deterministic RTL behind the bridge

The bridge is closed with a model of the RTL: a function from the state of the core and
of the bridge to what the core shows in the next clock. The machine keeps what it has
done, clock by clock and completion by completion, and the result of its last step, so
that two machines that are equal have made the same run.
-/

namespace OpenNpux.Bridge

open Lib

/-- A deterministic model of the core and of the drivers on its slave port. -/
structure RtlModel (C : Type) where
  clock : C → Handle → C × CoreClock
  startRead : Nat → Nat → C → C
  startWrite : Nat → Nat → ByteMem → C → C
  /-- The clocks until the transaction that was started has finished. -/
  accessClocks : C → Handle → Nat
  readData : C → ByteMem

inductive Observation
  | clock (c : CoreClock)
  | completion (request : DmaRequest) (payload : Option (ByteMem × Nat)) (error : Bool)

structure Machine (C : Type) where
  core : C
  handle : Handle := {}
  history : List Observation := []
  /-- What the last step returned. -/
  result : Int := 0

def translateSlaveAddress (rvvHighmem : Bool) (addr : Nat) : Nat :=
  if rvvHighmem ∧ 0x30000 ≤ addr ∧ addr < 0x31000 then 0x200000 + (addr - 0x30000) else addr

namespace Machine

variable {C F : Type} (cfg : BridgeConfig F) (rtl : RtlModel C)

def accessClock (m : Machine C) : Machine C :=
  let next := rtl.clock m.core m.handle
  { m with
    core := next.1
    handle := m.handle.wrapperStep cfg next.2
    history := m.history ++ [.clock next.2] }

/-- The clocks of the slave transaction that the core has been given. -/
def access (m : Machine C) : Machine C :=
  (accessClock cfg rtl)^[rtl.accessClocks m.core m.handle] m

def mmioRead (addr size : Nat) (m : Machine C) : Machine C × Option ByteMem :=
  if size = 0 then (m, none)
  else
    let m := access cfg rtl
      { m with core := rtl.startRead (translateSlaveAddress cfg.rvvHighmem addr) size m.core }
    (m, some (rtl.readData m.core))

def mmioWrite (addr size : Nat) (data : ByteMem) (m : Machine C) : Machine C × Bool :=
  if size = 0 then (m, false)
  else
    (access cfg rtl
      { m with
        core := rtl.startWrite (translateSlaveAddress cfg.rvvHighmem addr) size data m.core },
      true)

/-- One turn of the loop of `coral_gem5_step`. -/
def clock (m : Machine C) : Machine C :=
  let next := rtl.clock m.core m.handle
  { m with
    core := next.1
    handle := m.handle.stepClock cfg next.2
    history := m.history ++ [.clock next.2] }

def stepLoop : Nat → Machine C → Machine C × Int
  | 0, m => (m, if m.handle.wfi then 3 else 0)
  | cycles + 1, m =>
    if m.handle.faultSeen then (m, 4)
    else if m.handle.halted then (m, 1)
    else
      let m := m.clock cfg rtl
      if m.handle.dmaPending then (m, 2)
      else if m.handle.faultSeen then (m, 4)
      else if m.handle.halted then (m, 1)
      else stepLoop cycles m

def step (cycles : Nat) (m : Machine C) : Machine C × Int :=
  let o :=
    if cycles = 0 then (m, -1)
    else if m.handle.dmaPending then (m, 2)
    else m.stepLoop cfg rtl cycles
  ({ o.1 with result := o.2 }, o.2)

def dmaComplete (payload : Option (ByteMem × Nat)) (error : Bool) (m : Machine C) :
    Machine C × Int :=
  let o := m.handle.dmaComplete payload error
  ({ m with
     handle := o.1
     history := m.history ++ [.completion m.handle.pendingDma payload error] }, o.2)

def bridge : Device.CoralBridge (Machine C) where
  mmioRead := mmioRead cfg rtl
  mmioWrite := mmioWrite cfg rtl
  step := step cfg rtl
  cycleCount m := m.handle.rtlCycles
  dmaRequestGet m := m.handle.dmaRequestGet
  dmaComplete := dmaComplete
  extmemRead addr size m := m.handle.extmemRead addr size
  extmemWrite addr size data m :=
    (m.handle.extmemWrite addr size data).map fun handle => { m with handle }

end Machine

/-! ## Steps add up -/

namespace Handle

/-- The code with which a step stops before its last clock. -/
def stopCode (h : Handle) : Option Int :=
  if h.dmaPending then some 2 else if h.faultSeen then some 4 else if h.halted then some 1 else none

def returnCode (h : Handle) : Int := h.stopCode.getD (if h.wfi then 3 else 0)

theorem stopCode_eq_none {h : Handle} :
    h.stopCode = none ↔ h.dmaPending = false ∧ h.faultSeen = false ∧ h.halted = false := by
  unfold stopCode
  cases h.dmaPending <;> cases h.faultSeen <;> cases h.halted <;> simp

section Cycles

variable {F : Type} (cfg : BridgeConfig F) (h : Handle)

theorem writeCallback_rtlCycles (a : AxiAddr) (data : List AxiWData) :
    (h.writeCallback cfg a data).rtlCycles = h.rtlCycles := by
  have hOperator : ∀ dp, (h.runOperator cfg dp).rtlCycles = h.rtlCycles := by
    intro dp
    unfold runOperator
    split
    · rfl
    split <;> rfl
  unfold writeCallback
  split
  · simp only [hybridWrite]
    split
    · exact hOperator _
    · rfl
  split
  · simp only [macWrite]
    split
    · split <;> rfl
    · rfl
  dsimp only
  split
  · rfl
  split <;> rfl

theorem wrapperStep_rtlCycles (c : CoreClock) : (h.wrapperStep cfg c).rtlCycles = h.rtlCycles := by
  have hRead : (h.readEdge cfg c.readPins).rtlCycles = h.rtlCycles := by
    simp only [readEdge]
    split
    · rfl
    · rename_i a _
      generalize hDriven : { h with masterRead := (h.masterRead.onFallingEdge c.readPins).1 } = g
      have hTaken := readCallback_taken cfg g a
      generalize readCallback cfg g a = taken at hTaken ⊢
      subst hDriven
      cases hTaken <;> rfl
  have hWrite : ∀ g : Handle, (g.writeEdge cfg c.writePins).rtlCycles = g.rtlCycles := by
    intro g
    simp only [writeEdge]
    split
    · rfl
    · exact writeCallback_rtlCycles cfg _ _ _
  rw [wrapperStep]
  exact (hWrite _).trans hRead

end Cycles
end Handle

namespace Machine

variable {C F : Type} (cfg : BridgeConfig F) (rtl : RtlModel C)

/-- A clock, unless something has stopped the step. -/
def turn (m : Machine C) : Machine C :=
  if m.handle.stopCode = none then m.clock cfg rtl else m

variable {cfg rtl} {m : Machine C}

theorem turn_stopped (h : m.handle.stopCode ≠ none) (n : Nat) : (turn cfg rtl)^[n] m = m := by
  have hFixed : turn cfg rtl m = m := if_neg h
  exact Function.iterate_fixed hFixed n

theorem stepLoop_succ (h : m.handle.stopCode = none) (n : Nat) :
    m.stepLoop cfg rtl (n + 1) =
      match (m.clock cfg rtl).handle.stopCode with
      | some code => (m.clock cfg rtl, code)
      | none => (m.clock cfg rtl).stepLoop cfg rtl n := by
  obtain ⟨-, hFault, hHalted⟩ := Handle.stopCode_eq_none.mp h
  rw [stepLoop, hFault, hHalted, Handle.stopCode]
  simp only [Bool.false_eq_true, if_false]
  cases (m.clock cfg rtl).handle.dmaPending <;> cases (m.clock cfg rtl).handle.faultSeen <;>
    cases (m.clock cfg rtl).handle.halted <;> rfl

theorem stepLoop_eq (h : m.handle.stopCode = none) (n : Nat) :
    m.stepLoop cfg rtl n =
      ((turn cfg rtl)^[n] m, ((turn cfg rtl)^[n] m).handle.returnCode) := by
  induction n generalizing m with
  | zero => rw [stepLoop, Function.iterate_zero, id, Handle.returnCode, h, Option.getD_none]
  | succ n ih =>
    rw [Function.iterate_succ_apply, turn, if_pos h, stepLoop_succ h]
    cases hCode : (m.clock cfg rtl).handle.stopCode with
    | none => exact ih hCode
    | some code => rw [turn_stopped (by simp [hCode]), Handle.returnCode, hCode, Option.getD_some]

theorem step_eq (m : Machine C) {n : Nat} (hn : n ≠ 0) :
    m.step cfg rtl n =
      ({ (turn cfg rtl)^[n] m with result := ((turn cfg rtl)^[n] m).handle.returnCode },
        ((turn cfg rtl)^[n] m).handle.returnCode) := by
  have hLoop : (if m.handle.dmaPending then (m, 2) else m.stepLoop cfg rtl n) =
      ((turn cfg rtl)^[n] m, ((turn cfg rtl)^[n] m).handle.returnCode) := by
    cases hCode : m.handle.stopCode with
    | none =>
      rw [if_neg (by simp [(Handle.stopCode_eq_none.mp hCode).1])]
      exact stepLoop_eq hCode n
    | some code =>
      obtain ⟨k, rfl⟩ := Nat.exists_eq_succ_of_ne_zero hn
      rw [turn_stopped (by simp [hCode]), Handle.returnCode, hCode, Option.getD_some, stepLoop]
      rw [Handle.stopCode] at hCode
      revert hCode
      cases m.handle.dmaPending <;> cases m.handle.faultSeen <;> cases m.handle.halted <;>
        simp
  rw [step, if_neg hn, hLoop]

theorem turn_result (m : Machine C) (result : Int) (n : Nat) :
    (turn cfg rtl)^[n] { m with result } = { (turn cfg rtl)^[n] m with result } := by
  induction n generalizing m with
  | zero => rfl
  | succ n ih =>
    rw [Function.iterate_succ_apply, Function.iterate_succ_apply, ← ih]
    congr 1
    unfold turn
    split <;> rfl

theorem step_step (m : Machine C) {a b : Nat} (ha : a ≠ 0) (hb : b ≠ 0) :
    (m.step cfg rtl a).1.step cfg rtl b = m.step cfg rtl (a + b) := by
  rw [step_eq m ha, step_eq _ hb, step_eq m (by omega), turn_result, Nat.add_comm,
    Function.iterate_add_apply]

theorem step_stopped {n : Nat} (hn : n ≠ 0) (h : ((turn cfg rtl) m).handle.stopCode ≠ none) :
    m.step cfg rtl n = m.step cfg rtl 1 := by
  obtain ⟨k, rfl⟩ := Nat.exists_eq_succ_of_ne_zero hn
  rw [step_eq m hn, step_eq m Nat.one_ne_zero, Function.iterate_succ_apply, turn_stopped h,
    Function.iterate_one]

/-! ## What turns leave behind -/

theorem turn_cycles (m : Machine C) :
    m.handle.rtlCycles ≤ (turn cfg rtl m).handle.rtlCycles ∧
      (turn cfg rtl m).handle.rtlCycles ≤ m.handle.rtlCycles + 1 := by
  unfold turn
  split
  · have hClock : (m.clock cfg rtl).handle.rtlCycles = m.handle.rtlCycles + 1 :=
      Handle.wrapperStep_rtlCycles cfg _ _
    omega
  · omega

theorem step_cycles (m : Machine C) {n : Nat} (hn : n ≠ 0) :
    m.handle.rtlCycles ≤ (m.step cfg rtl n).1.handle.rtlCycles ∧
      (m.step cfg rtl n).1.handle.rtlCycles ≤ m.handle.rtlCycles + n := by
  rw [step_eq m hn]
  clear hn
  induction n generalizing m with
  | zero => exact ⟨Nat.le_refl _, Nat.le_refl _⟩
  | succ n ih =>
    have hFirst := @turn_cycles _ _ cfg rtl m
    have hRest := ih (turn cfg rtl m)
    rw [Function.iterate_succ_apply]
    dsimp only at hRest ⊢
    omega

theorem step_history (m : Machine C) {n : Nat} (hn : n ≠ 0) :
    m.history <+: (m.step cfg rtl n).1.history := by
  rw [step_eq m hn]
  clear hn
  induction n generalizing m with
  | zero => exact List.prefix_refl _
  | succ n ih =>
    rw [Function.iterate_succ_apply]
    refine List.IsPrefix.trans ?_ (ih (turn cfg rtl m))
    unfold turn
    split
    · exact List.prefix_append _ _
    · exact List.prefix_refl _

end Machine

end OpenNpux.Bridge
