import OpenNpux.Hybrid.ConvExact

/-!
# The output of a dispatched convolution

A dispatch that succeeds has passed the checks of its kernel, so both convolutions leave
the exact values of the reference in their output wherever the last addition stays in 32
bits. What the dispatch stores afterwards is in the descriptor.
-/

namespace OpenNpux.Hybrid

open Lib

/-! ## A kernel that has returned -/

section Kernel

variable {base dp : Nat} {m : ByteMem}

theorem shiftsValid_of_returned {α : Type} {d : OperatorDescriptor} {rest : Unit → Kernel α} {a : α}
    (h : ((checkShifts d base >>= rest) m).result = some a) : ShiftsValid base d m := by
  obtain ⟨_, hReturned⟩ := Prog.returned_of_bind h
  exact (checkShifts_checks d base m).2.1 hReturned

/-- The checks that a returned kernel has passed. -/
theorem conv2D_passed {elapsed : Nat}
    (h : (runGem5HybridConv2D dp base elapsed m).result = some ()) :
    (commonConvValid (.read m dp) false m).result = some () ∧ ShiftsValid base (.read m dp) m := by
  have hFrom : (conv2DFrom dp base elapsed (.read m dp) m).result = some () := h
  obtain ⟨_, hChecks⟩ := Prog.returned_of_bind hFrom
  obtain ⟨_, hCommon⟩ := Prog.returned_of_bind hChecks
  refine ⟨hCommon, ?_⟩
  rw [conv2DChecks, (commonConvValid_evaluates hCommon).bind_result] at hChecks
  exact (checkShifts_checks _ base m).2.1 hChecks

theorem depthwise_passed {elapsed : Nat}
    (h : (runGem5HybridDepthwiseConv2D dp base elapsed m).result = some ()) :
    (commonConvValid (.read m dp) true m).result = some () ∧ ShiftsValid base (.read m dp) m := by
  have hFrom : (depthwiseFrom dp base elapsed (.read m dp) m).result = some () := h
  obtain ⟨_, hChecks⟩ := Prog.returned_of_bind hFrom
  obtain ⟨_, hCommon⟩ := Prog.returned_of_bind hChecks
  refine ⟨hCommon, ?_⟩
  rw [depthwiseChecks, (commonConvValid_evaluates hCommon).bind_result] at hChecks
  exact shiftsValid_of_returned hChecks

variable {F : Type} (ops : FloatOps F) {depthwise : Bool} {elapsed capacity : Nat}
  (hInside : DeclaredInside (.read m dp) base capacity)
  (hApart : RegionsApart base dp (.read m dp)) (hZeros : OperandZeros (.read m dp))

include hInside hApart hZeros

theorem runKernel_stored
    (hTrue : (runKernel ops dp base elapsed (some (convOpcode depthwise)) m).result = some true) :
    ConvShape (.read m dp) depthwise ∧ ShiftsValid base (.read m dp) m ∧
      Stored base (.read m dp) (fun k => convValue base (.read m dp) m
        (convTerm depthwise base (.read m dp) m k) k.2.1 k.2.2.1 k.2.2.2)
        (runKernel ops dp base elapsed (some (convOpcode depthwise)) m).state := by
  cases depthwise with
  | true =>
    have hReturned : (runGem5HybridDepthwiseConv2D dp base elapsed m).result.isSome = true :=
      Option.some.inj hTrue
    obtain ⟨_, hResult⟩ := Option.isSome_iff_exists.mp hReturned
    obtain ⟨hCommon, hShifts⟩ := depthwise_passed hResult
    obtain ⟨-, _, _, hStored⟩ := depthwise_runs hInside hApart hZeros hCommon hShifts elapsed
    exact ⟨convShape_of_accepted hInside hCommon, hShifts, hStored⟩
  | false =>
    have hReturned : (runGem5HybridConv2D dp base elapsed m).result.isSome = true :=
      Option.some.inj hTrue
    obtain ⟨_, hResult⟩ := Option.isSome_iff_exists.mp hReturned
    obtain ⟨hCommon, hShifts⟩ := conv2D_passed hResult
    obtain ⟨-, _, _, hStored⟩ := conv2D_runs hInside hApart hZeros hCommon hShifts elapsed
    exact ⟨convShape_of_accepted hInside hCommon, hShifts, hStored⟩

end Kernel

/-! ## The dispatch -/

section Dispatch

variable {base dp capacity elapsed : Nat} {d : OperatorDescriptor} {m : ByteMem} {depthwise : Bool}
  {value : Nat × Nat × Nat × Nat → Int}

/-- A later store to the descriptor leaves the output as it is. -/
theorem Stored.storeWord (h : Stored base d value m) (hShape : ConvShape d depthwise)
    (hApart : ApartFrom base (d.tensors 3) dp descriptorBytes) {a n : Nat} (word : Nat)
    (hPlace : dp ≤ a ∧ a + n ≤ dp + descriptorBytes) :
    Stored base d value (m.storeWord a n word) := by
  intro k hk
  rw [← h k hk, int8At, int8At, ByteMem.storeWord, ByteMem.store_outside]
  rintro ⟨hLow, hHigh⟩
  have hBeside := @ApartFrom.beside base dp descriptorBytes
    (outputOffset base d k.1 k.2.1 k.2.2.1 k.2.2.2 - dp) (d.tensors 3) hApart (by omega)
  rw [Nat.add_sub_cancel' (by omega)] at hBeside
  exact outputOffset_beside hShape hk hBeside rfl

theorem Stored.concluded (h : Stored base d value m) (hShape : ConvShape d depthwise)
    (hApart : ApartFrom base (d.tensors 3) dp descriptorBytes) :
    Stored base d value (concludeRun dp true m).state := by
  rw [concludeRun_true]
  apply Stored.storeWord _ hShape hApart _ (by unfold descriptorBytes; omega)
  split
  · exact h.storeWord hShape hApart _ (by unfold descriptorBytes; omega)
  · exact h

/-- A dispatched convolution that has succeeded leaves the exact values. -/
theorem dispatch_stored {F : Type} (ops : FloatOps F)
    (hOpcode : OperatorOpcode.ofCode (OperatorDescriptor.read (started dp m) dp).opcode =
      some (convOpcode depthwise))
    (hCapacity : capacity < 2 ^ 31) (hApart : RegionsApart base dp (.read (started dp m) dp))
    (hZeros : OperandZeros (.read (started dp m) dp)) (hTaps : TapsBelow (.read (started dp m) dp))
    (hTrue : (dispatchGem5HybridOperator ops dp base capacity elapsed m).result = some true)
    (hScaled : ∀ k, InOutput (.read (started dp m) dp) k → CType.int32.Holds
      (exactScaled depthwise base (.read (started dp m) dp) (started dp m) k)) :
    ConvShape (.read (started dp m) dp) depthwise ∧
      Stored base (.read (started dp m) dp) (fun k => clampActivation (.read (started dp m) dp)
        (exactScaled depthwise base (.read (started dp m) dp) (started dp m) k))
        (dispatchGem5HybridOperator ops dp base capacity elapsed m).state := by
  by_cases hValid : validateGem5HybridDescriptor (.read m dp) base capacity = .none
  · obtain ⟨success, hSuccess⟩ := Option.isSome_iff_exists.mp
      (runKernel_total ops dp base elapsed (OperatorOpcode.ofCode
        (OperatorDescriptor.read (started dp m) dp).opcode) (started dp m))
    obtain ⟨hResult, hState⟩ := dispatch_valid ops elapsed hValid rfl hSuccess
    rw [hResult, Option.some.injEq] at hTrue
    subst hTrue
    obtain ⟨_, hInside⟩ := started_declaredInside hValid
    rw [hOpcode] at hSuccess hState
    obtain ⟨hShape, hShifts, hStored⟩ := runKernel_stored ops hInside hApart hZeros hSuccess
    refine ⟨hShape, ?_⟩
    rw [hState]
    refine Stored.concluded (fun k hk => ?_) hShape hApart.descriptor
    rw [hStored k hk]
    dsimp only
    rw [convValue_exact hInside hCapacity hZeros hTaps hShape hShifts hk,
      i32_of_range (hScaled k hk).1 (hScaled k hk).2]
  · rw [dispatch_invalid ops elapsed hValid] at hTrue
    cases hTrue

end Dispatch

end OpenNpux.Hybrid
