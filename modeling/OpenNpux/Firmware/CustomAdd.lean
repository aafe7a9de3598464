import OpenNpux.Bridge.MacGating
import OpenNpux.Firmware.CommandWindow

/-!
# An addition on a MAC in any state

A command left running needs at most three more clocks, and each of the three operand
writes is one. So the MAC is idle when the command is written, whatever it was doing
before, and the result is read once this command has counted down.
-/

namespace OpenNpux.Bridge

/-- Some clocks, and no register write, between two states of the block. -/
structure MacRtl.Onward (r r' : MacRtl) : Prop where
  operandA : r'.operandA = r.operandA
  operandB : r'.operandB = r.operandB
  accumulator : r'.accumulator = r.accumulator
  counting : ∀ n, r.Counting n → r'.Counting n
  idle : r.busy = false → r' = r

namespace MacRtl

theorem Onward.refl (r : MacRtl) : r.Onward r :=
  ⟨rfl, rfl, rfl, fun _ h => h, fun _ => rfl⟩

theorem Onward.trans {r r' r'' : MacRtl} (h : r.Onward r') (h' : r'.Onward r'') : r.Onward r'' where
  operandA := h'.operandA.trans h.operandA
  operandB := h'.operandB.trans h.operandB
  accumulator := h'.accumulator.trans h.accumulator
  counting n hn := h'.counting n (h.counting n hn)
  idle hIdle := by
    have hSame := h.idle hIdle
    rw [h'.idle (hSame ▸ hIdle), hSame]

theorem onward_countDown (r : MacRtl) : r.Onward r.countDown := by
  have hOperands : r.countDown.operandA = r.operandA ∧ r.countDown.operandB = r.operandB ∧
      r.countDown.accumulator = r.accumulator := by
    unfold countDown
    split
    · split <;> exact ⟨rfl, rfl, rfl⟩
    · exact ⟨rfl, rfl, rfl⟩
  exact ⟨hOperands.1, hOperands.2.1, hOperands.2.2,
    fun n h => h.countDown.mono (Nat.sub_le _ _), countDown_of_idle⟩

/-- An operand write after some clocks: these are the operands then, and the countdown has
one clock less to go. -/
structure Wrote (r r' : MacRtl) (a b c : UInt32) : Prop where
  operandA : r'.operandA = a
  operandB : r'.operandB = b
  accumulator : r'.accumulator = c
  counting : ∀ n, r.Counting n → r'.Counting (n - 1)
  idle : r.busy = false → r'.busy = false ∧ r'.cycles = r.cycles

theorem Onward.wrote {r r₀ r' : MacRtl} (h : r.Onward r₀) (hBusy : r'.busy = r₀.countDown.busy)
    (hCountdown : r'.countdown = r₀.countDown.countdown)
    (hCycles : r'.cycles = r₀.countDown.cycles) :
    r.Wrote r' r'.operandA r'.operandB r'.accumulator := by
  refine ⟨rfl, rfl, rfl, fun n hn hStill => ?_, fun hIdle => ?_⟩
  · rw [hCountdown]
    exact (h.counting n hn).countDown (hBusy ▸ hStill)
  · rw [hBusy, hCycles, h.idle hIdle, countDown_of_idle hIdle]
    exact ⟨hIdle, rfl⟩

end MacRtl

namespace Gem5CustomMac

theorem onward_iterate (mac : Gem5CustomMac) (n : Nat) :
    mac.model.Onward (stepIfActive^[n] mac).model := by
  induction n with
  | zero => exact .refl _
  | succ n ih =>
    rw [Function.iterate_succ_apply']
    refine ih.trans ?_
    unfold stepIfActive
    split
    · exact .refl _
    · exact MacRtl.onward_countDown _

theorem write32_reg_model (mac : Gem5CustomMac) (offset : Nat) (value : UInt32) :
    (mac.write32 (macBase + offset) value).model =
      mac.model.posedge (some (UInt8.ofNat offset, value)) := by
  rw [write32_model, addrInput_base]

section Operands

variable (mac : Gem5CustomMac) (k : Nat) (value : UInt32)

theorem wrote_operandA :
    mac.model.Wrote ((stepIfActive^[k] mac).write32 (macBase + 0x00) value).model
      value mac.model.operandB mac.model.accumulator := by
  have hOn := mac.onward_iterate k
  have hEdge := hOn.trans (MacRtl.onward_countDown _)
  rw [write32_reg_model, ← hEdge.operandB, ← hEdge.accumulator]
  exact @MacRtl.Onward.wrote _ _ { (stepIfActive^[k] mac).model.countDown with operandA := value }
    hOn rfl rfl rfl

theorem wrote_operandB :
    mac.model.Wrote ((stepIfActive^[k] mac).write32 (macBase + 0x04) value).model
      mac.model.operandA value mac.model.accumulator := by
  have hOn := mac.onward_iterate k
  have hEdge := hOn.trans (MacRtl.onward_countDown _)
  rw [write32_reg_model, ← hEdge.operandA, ← hEdge.accumulator]
  exact @MacRtl.Onward.wrote _ _ { (stepIfActive^[k] mac).model.countDown with operandB := value }
    hOn rfl rfl rfl

theorem wrote_accumulator :
    mac.model.Wrote ((stepIfActive^[k] mac).write32 (macBase + 0x08) value).model
      mac.model.operandA mac.model.operandB value := by
  have hOn := mac.onward_iterate k
  have hEdge := hOn.trans (MacRtl.onward_countDown _)
  rw [write32_reg_model, ← hEdge.operandA, ← hEdge.operandB]
  exact @MacRtl.Onward.wrote _ _ { (stepIfActive^[k] mac).model.countDown with
    accumulator := value } hOn rfl rfl rfl

end Operands

/-- The writes of an addition, with any numbers of clocks before them. -/
def submitted (mac : Gem5CustomMac) (lhs rhs : UInt32) (k₀ k₁ k₂ k₃ : Nat) : Gem5CustomMac :=
  let mac₁ := (stepIfActive^[k₀] mac).write32 (macBase + 0x00) lhs
  let mac₂ := (stepIfActive^[k₁] mac₁).write32 (macBase + 0x04) 1
  let mac₃ := (stepIfActive^[k₂] mac₂).write32 (macBase + 0x08) rhs
  (stepIfActive^[k₃] mac₃).write32 (macBase + 0x0c) 1

/-- Each operand write takes a clock off a command that still runs, so the third one leaves
the block idle with the operands of this addition. -/
theorem submitted_computes {mac : Gem5CustomMac} (h : mac.model.Counting 3) (lhs rhs : UInt32)
    (k₀ k₁ k₂ k₃ : Nat) :
    (mac.submitted lhs rhs k₀ k₁ k₂ k₃).Computes 3 (lhs + rhs) ∧
      (mac.model.busy = false →
        (mac.submitted lhs rhs k₀ k₁ k₂ k₃).endCycles = mac.model.cycles + 3) := by
  unfold submitted
  dsimp only
  have hWrote₁ := mac.wrote_operandA k₀ lhs
  generalize (stepIfActive^[k₀] mac).write32 (macBase + 0x00) lhs = mac₁ at *
  have hWrote₂ := mac₁.wrote_operandB k₁ 1
  generalize (stepIfActive^[k₁] mac₁).write32 (macBase + 0x04) 1 = mac₂ at *
  have hWrote₃ := mac₂.wrote_accumulator k₂ rhs
  generalize (stepIfActive^[k₂] mac₂).write32 (macBase + 0x08) rhs = mac₃ at *
  have hIdle : mac₃.model.busy = false :=
    (hWrote₃.counting _ (hWrote₂.counting _ (hWrote₁.counting _ h))).idle
  have hSame := (mac₃.onward_iterate k₃).idle hIdle
  have hCommand := @computes_of_command (stepIfActive^[k₃] mac₃) (hSame ▸ hIdle)
  have hOperands : (stepIfActive^[k₃] mac₃).model.operandA *
      (stepIfActive^[k₃] mac₃).model.operandB + (stepIfActive^[k₃] mac₃).model.accumulator =
        lhs + rhs := by
    rw [hSame, hWrote₃.operandA, hWrote₃.operandB, hWrote₃.accumulator, hWrote₂.operandA,
      hWrote₂.operandB, hWrote₁.operandA, UInt32.mul_one]
  rw [hOperands] at hCommand
  refine ⟨hCommand, fun hStart => ?_⟩
  obtain ⟨hIdle₁, hCycles₁⟩ := hWrote₁.idle hStart
  obtain ⟨hIdle₂, hCycles₂⟩ := hWrote₂.idle hIdle₁
  obtain ⟨_, hCycles₃⟩ := hWrote₃.idle hIdle₂
  rw [endCycles, hCommand.activeCycles, write32_reg_model, posedge_cycles (hSame ▸ hIdle), hSame,
    hCycles₃, hCycles₂, hCycles₁]
  rfl

end Gem5CustomMac
end OpenNpux.Bridge

namespace OpenNpux.Firmware

open Lib Bridge

section Add

variable (steps : Nat → Nat → Nat)

def submitAdd (lhs rhs : Nat) : Prog Core WindowAccess Unit := do
  writeReg steps 0x00 lhs
  writeReg steps 0x04 1
  writeReg steps 0x08 rhs
  writeReg steps 0x0c 1

theorem submitAdd_apply (lhs rhs : UInt32) (s : Core) :
    submitAdd steps lhs.toNat rhs.toNat s =
      ⟨some (),
        { s with
          mac := s.mac.submitted lhs rhs (steps s.macAccesses 0x00) (steps (s.macAccesses + 1) 0x04)
            (steps (s.macAccesses + 2) 0x08) (steps (s.macAccesses + 3) 0x0c)
          macAccesses := s.macAccesses + 4 }, []⟩ := by
  simp only [submitAdd, Prog.bind_apply, writeReg_apply, Core.clocked, UInt32.ofNat_toNat]
  rfl

theorem customAdd_apply {fuel lhs rhs : Nat} {s s₁ s₂ : Core}
    (hSubmit : submitAdd steps lhs rhs s = ⟨some (), s₁, []⟩)
    (hPoll : pollDone steps fuel s₁ = ⟨some (), s₂, []⟩) :
    customAdd steps fuel lhs rhs s = readReg steps 0x10 s₂ := by
  have hState := congrArg Outcome.state hSubmit
  simp only [submitAdd, Prog.bind_apply, writeReg_apply] at hState
  simp only [customAdd, Prog.bind_apply, writeReg_apply, hState, hPoll, List.nil_append]

/-- From every reachable state of the MAC this addition's command is accepted, the result
is read when it has completed, and the sum is returned. -/
theorem customAdd_correct {s : Core} (hReachable : s.mac.Reachable)
    (hPolls : ∀ n, s.macAccesses + 4 < n → 0 < steps n 0x14) {fuel : Nat} (hFuel : 4 < fuel)
    (lhs rhs : UInt32) :
    ∃ s₁ s₂ : Core,
      submitAdd steps lhs.toNat rhs.toNat s = ⟨some (), s₁, []⟩ ∧
      s₁.mac.Computes 3 (lhs + rhs) ∧
      pollDone steps fuel s₁ = ⟨some (), s₂, []⟩ ∧
      s₂.mac.Computes 0 (lhs + rhs) ∧
      customAdd steps fuel lhs.toNat rhs.toNat s = readReg steps 0x10 s₂ ∧
      (customAdd steps fuel lhs.toNat rhs.toNat s).result = some (lhs + rhs).toNat ∧
      (s.mac.model.busy = false →
        (customAdd steps fuel lhs.toNat rhs.toNat s).state.mac.model.cycles =
          s.mac.model.cycles + 3) := by
  have hSubmit := submitAdd_apply steps lhs rhs s
  obtain ⟨hComputes, hCycles⟩ := Gem5CustomMac.submitted_computes hReachable.counting lhs rhs
    (steps s.macAccesses 0x00) (steps (s.macAccesses + 1) 0x04) (steps (s.macAccesses + 2) 0x08)
    (steps (s.macAccesses + 3) 0x0c)
  generalize hS₁ : { s with
    mac := s.mac.submitted lhs rhs (steps s.macAccesses 0x00) (steps (s.macAccesses + 1) 0x04)
      (steps (s.macAccesses + 2) 0x08) (steps (s.macAccesses + 3) 0x0c)
    macAccesses := s.macAccesses + 4 } = s₁ at hSubmit
  have hMac := congrArg Core.mac hS₁
  have hAccesses := congrArg Core.macAccesses hS₁
  dsimp only at hMac hAccesses
  rw [hMac] at hComputes hCycles
  obtain ⟨hTrace, ⟨⟩, hResult, _, hDone, hEnd⟩ := @pollDone_runs (fun _ => False) steps _ _ _ _
    (show 3 < fuel by omega) (.inr (by omega)) (by rw [← hAccesses]; exact hPolls) hComputes
  have hPoll : pollDone steps fuel s₁ = ⟨some (), (pollDone steps fuel s₁).state, []⟩ := by
    rw [← hResult, ← List.eq_nil_iff_forall_not_mem.2 hTrace]
  have hRead := customAdd_apply steps hSubmit hPoll
  refine ⟨s₁, _, hSubmit, hComputes, hPoll, hDone, hRead, ?_, fun hIdle => ?_⟩
  · rw [hRead, readReg_apply, Core.clocked_idle steps hDone.idle, hDone.result]
  · rw [hRead, readReg_apply, Core.clocked_idle steps hDone.idle, ← hDone.idle.endCycles_eq, hEnd,
      hCycles hIdle]

end Add

/-- The MAC as a run that was aborted right after its command leaves it. -/
def abortedCore : Core :=
  { memory := fun _ => 0
    mac := Gem5CustomMac.call Gem5CustomMac.stepIfActive {} (.write 0x3000000c 1) }

theorem customAdd_correct_aborted :
    abortedCore.mac.model.busy = true ∧
      (customAdd (fun _ offset => if offset = 0x14 then 1 else 0) 5 (7 : UInt32).toNat
        (35 : UInt32).toNat abortedCore).result = some ((7 : UInt32) + 35).toNat := by
  refine ⟨by decide, ?_⟩
  obtain ⟨_, _, -, -, -, -, -, hSum, -⟩ :=
    customAdd_correct (fun _ offset => if offset = 0x14 then 1 else 0) (s := abortedCore)
      ⟨[.write 0x3000000c 1], rfl⟩ (fun _ _ => Nat.one_pos) (show 4 < 5 by decide) 7 35
  exact hSum

end OpenNpux.Firmware
