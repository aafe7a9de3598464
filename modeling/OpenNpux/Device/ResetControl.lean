import OpenNpux.Device.VerilatedBackend

/-!
# The reset contract of the two backends

After a sequence of writes to `RESET_CONTROL` with no event in between, the Verilated
backend runs iff the last value has both bits clear. The stage-A backend starts only on
the edge that clears the reset bit, so what counts there is the first value written after
the last reset, and clearing or setting the clock gate later is not seen. In either backend
a start is lost if its tick and the delay add up to zero in 64 bits.
-/

namespace OpenNpux.Device

open Lib

structure ResetWrite where
  tick : Nat
  value : UInt32

namespace ResetWrite

def reset (w : ResetWrite) : Bool := hasBit (w.value.toNat % 4) resetBit

def clockGate (w : ResetWrite) : Bool := hasBit (w.value.toNat % 4) clockGateBit

def runs (w : ResetWrite) : Bool := !w.reset && !w.clockGate

/-- An event that the write schedules after `delay` falls on tick zero, which means no event. -/
def wraps (delay : Nat) (w : ResetWrite) : Bool := tickAfter w.tick delay == 0

def stageA (p : StageAParams) (b : CoralStageABackend) (w : ResetWrite) : CoralStageABackend :=
  (b.writeCsr p w.tick CoralStageABackend.csrOffset 4 w.value.toNat).getD b

def verilated {M : Type} (br : CoralBridge M) (v : VerilatedParams) (b : CoralVerilatedBackend M)
    (w : ResetWrite) : CoralVerilatedBackend M :=
  (CoralVerilatedBackend.write br v w.tick resetControlOffset 4
    (ByteMem.bytesOf w.value.toNat) b).state

end ResetWrite

/-- The values written after the last reset; the backend powers on in reset. -/
def sinceReset (writes : List ResetWrite) : List ResetWrite :=
  (writes.reverse.takeWhile fun w => !w.reset).reverse

theorem sinceReset_snoc (writes : List ResetWrite) (w : ResetWrite) :
    sinceReset (writes ++ [w]) = if w.reset then [] else sinceReset writes ++ [w] := by
  cases hReset : w.reset <;> simp [sinceReset, hReset]

/-! ## The stage-A backend -/

section StageA

variable {p : StageAParams}

/-- What the stage-A backend remembers of the writes. -/
structure StageATracks (p : StageAParams) (writes : List ResetWrite) (b : CoralStageABackend) :
    Prop where
  reset : hasBit b.resetControl resetBit = true ↔ sinceReset writes = []
  pending : b.pendingEventTick ≠ 0 ↔ ∃ w, (sinceReset writes).head? = some w ∧
    w.clockGate = false ∧ w.wraps p.executionLatency = false

theorem stageATracks_init : StageATracks p [] {} where
  reset := by decide
  pending := by simp [sinceReset]

theorem ResetWrite.stageA_eq (b : CoralStageABackend) (w : ResetWrite) :
    w.stageA p b = b.writeResetControl p w.tick w.value.toNat := rfl

theorem StageATracks.write (hAuto : p.autoHalt = true) {writes : List ResetWrite}
    {b : CoralStageABackend} (h : StageATracks p writes b) (w : ResetWrite) :
    StageATracks p (writes ++ [w]) (w.stageA p b) := by
  rw [ResetWrite.stageA_eq, CoralStageABackend.writeResetControl]
  cases hReset : w.reset with
  | true =>
    have hBit : hasBit (w.value.toNat % 4) resetBit = true := hReset
    simp only [hBit, if_true]
    exact ⟨by simp [sinceReset_snoc, hReset, CoralStageABackend.stopExecution, hBit],
      by simp [sinceReset_snoc, hReset, CoralStageABackend.stopExecution]⟩
  | false =>
    have hBit : hasBit (w.value.toNat % 4) resetBit = false := hReset
    have hSince : sinceReset (writes ++ [w]) = sinceReset writes ++ [w] := by
      rw [sinceReset_snoc, hReset]
      rfl
    cases hOld : hasBit b.resetControl resetBit with
    | true =>
      -- the first write after a reset: it starts the execution iff the clock runs
      have hFirst : sinceReset writes = [] := h.reset.mp hOld
      have hIdle : ¬ b.pendingEventTick ≠ 0 := by simp [h.pending, hFirst]
      cases hGate : hasBit (w.value.toNat % 4) clockGateBit with
      | true =>
        have hw : w.clockGate = true := hGate
        simp only [hBit, Bool.not_true, Bool.and_false, Bool.false_eq_true, if_false]
        exact ⟨by simp [hSince, hBit], by simpa [hSince, hFirst, hw] using hIdle⟩
      | false =>
        have hw : w.clockGate = false := hGate
        simp only [hBit, Bool.not_false, Bool.and_true, Bool.false_eq_true, if_false, if_true]
        refine ⟨by simp [hSince, CoralStageABackend.startExecution, hBit], ?_⟩
        simp only [CoralStageABackend.startExecution, hAuto, if_true, hSince, hFirst]
        simp [hw, ResetWrite.wraps]
    | false =>
      have hLater : sinceReset writes ≠ [] := fun hNil => by simp [h.reset.mpr hNil] at hOld
      obtain ⟨first, rest, hList⟩ := List.exists_cons_of_ne_nil hLater
      simp only [hBit, Bool.false_and, Bool.false_eq_true, if_false]
      refine ⟨by simp [hSince, hBit], ?_⟩
      rw [hSince, hList, List.cons_append, List.head?_cons]
      simpa [hList] using h.pending

theorem stageATracks_writes (hAuto : p.autoHalt = true) (writes : List ResetWrite) :
    StageATracks p writes (writes.foldl (ResetWrite.stageA p) {}) := by
  induction writes using List.reverseRecOn with
  | nil => exact stageATracks_init
  | append_singleton writes w ih =>
    rw [List.foldl_append]
    exact ih.write hAuto w

end StageA

/-! ## The Verilated backend -/

section Verilated

variable {M : Type} {br : CoralBridge M} {v : VerilatedParams}

theorem verilated_pending
    (hAccepts : ∀ data m, (br.mmioWrite resetControlOffset 4 data m).2 = true)
    (b : CoralVerilatedBackend M) (w : ResetWrite) :
    (w.verilated br v b).pendingEventTick ≠ 0 ↔ w.runs = true ∧
      w.wraps v.rtlTickPeriod = false := by
  have hValue : ByteMem.load (ByteMem.bytesOf w.value.toNat) 0 4 = w.value.toNat := by
    rw [ByteMem.load_bytesOf]
    exact Nat.mod_eq_of_lt w.value.toNat_lt
  have hState : w.verilated br v b = { b with
      model := (br.mmioWrite resetControlOffset 4 (ByteMem.bytesOf w.value.toNat) b.model).1
      }.writeResetControl v w.tick w.value.toNat := by
    rw [ResetWrite.verilated, CoralVerilatedBackend.write_resetControl br v _
      (hAccepts _ _), hValue]
  rw [hState, CoralVerilatedBackend.writeResetControl]
  cases hReset : hasBit (w.value.toNat % 4) resetBit <;>
    cases hGate : hasBit (w.value.toNat % 4) clockGateBit <;>
      simp [ResetWrite.runs, ResetWrite.reset, ResetWrite.clockGate, ResetWrite.wraps,
        hReset, hGate]

theorem verilated_pending_writes
    (hAccepts : ∀ data m, (br.mmioWrite resetControlOffset 4 data m).2 = true)
    (model : M) (writes : List ResetWrite) :
    (writes.foldl (ResetWrite.verilated br v) { model }).pendingEventTick ≠ 0 ↔
      ∃ w, writes.getLast? = some w ∧ w.runs = true ∧ w.wraps v.rtlTickPeriod = false := by
  induction writes using List.reverseRecOn with
  | nil => simp
  | append_singleton writes w _ =>
    rw [List.foldl_append, List.foldl_cons, List.foldl_nil, verilated_pending hAccepts]
    simp

end Verilated

/-! ## The contract -/

/-- Both backends have a pending event afterwards iff the last value has both bits clear. -/
def ObeySameContract {M : Type} (p : StageAParams) (br : CoralBridge M) (v : VerilatedParams)
    (model : M) (writes : List ResetWrite) : Prop :=
  ((writes.foldl (ResetWrite.stageA p) {}).pendingEventTick ≠ 0 ↔
      (writes.foldl (ResetWrite.verilated br v) { model }).pendingEventTick ≠ 0) ∧
    ((writes.foldl (ResetWrite.verilated br v) { model }).pendingEventTick ≠ 0 ↔
      ∃ w, writes.getLast? = some w ∧ w.runs = true)

/-- The first and the last value written since the last reset agree on the clock gate, and where
they leave the clock running neither start wraps. A first start that wraps does not count. -/
def ClockGateUnchanged (p : StageAParams) (v : VerilatedParams) (writes : List ResetWrite) : Prop :=
  ∀ first ∈ (sinceReset writes).head?, ∀ last ∈ (sinceReset writes).getLast?,
    if last.clockGate then first.clockGate = true ∨ first.wraps p.executionLatency = true
    else first.clockGate = false ∧ first.wraps p.executionLatency = false ∧
      last.wraps v.rtlTickPeriod = false

instance (p : StageAParams) (v : VerilatedParams) (writes : List ResetWrite) :
    Decidable (ClockGateUnchanged p v writes) :=
  inferInstanceAs (Decidable (∀ _ ∈ _, ∀ _ ∈ _, _))

theorem last_runs_iff (writes : List ResetWrite) (w : ResetWrite) :
    writes.getLast? = some w ∧ w.runs = true ↔
      (sinceReset writes).getLast? = some w ∧ w.clockGate = false := by
  induction writes using List.reverseRecOn with
  | nil => simp [sinceReset]
  | append_singleton writes last _ =>
    rw [sinceReset_snoc, List.getLast?_concat]
    cases hReset : last.reset with
    | true =>
      simp only [if_true, List.getLast?_nil, reduceCtorEq, false_and, iff_false]
      rintro ⟨⟨⟩, hRuns⟩
      simp [ResetWrite.runs, hReset] at hRuns
    | false =>
      simp only [Bool.false_eq_true, if_false, List.getLast?_concat]
      refine and_congr_right ?_
      rintro ⟨⟩
      simp [ResetWrite.runs, hReset]

theorem reset_contract_iff {M : Type} (p : StageAParams) (br : CoralBridge M) (v : VerilatedParams)
    (hAuto : p.autoHalt = true)
    (hAccepts : ∀ data m, (br.mmioWrite resetControlOffset 4 data m).2 = true)
    (model : M) (writes : List ResetWrite) :
    ObeySameContract p br v model writes ↔ ClockGateUnchanged p v writes := by
  have hVerilated := verilated_pending_writes (v := v) hAccepts model writes
  have hStageA := (stageATracks_writes hAuto writes).pending
  simp only [← and_assoc, last_runs_iff] at hVerilated
  rw [ObeySameContract, hVerilated, hStageA]
  simp only [last_runs_iff, ClockGateUnchanged]
  rcases sinceReset writes with _ | ⟨first, rest⟩
  · simp
  · obtain ⟨last, hLast⟩ : ∃ last, (first :: rest).getLast? = some last :=
      ⟨_, List.getLast?_eq_some_getLast (List.cons_ne_nil first rest)⟩
    rw [hLast, List.head?_cons]
    cases hGate : last.clockGate <;> cases hWraps : last.wraps v.rtlTickPeriod <;>
      cases hFirst : first.clockGate <;> simp [hGate, hWraps, hFirst]

def stageADefaults : StageAParams where
  itcmSize := 8 * 1024
  dtcmSize := 32 * 1024
  executionLatency := 1000000
  autoHalt := true

def verilatedDefaults : VerilatedParams where
  rtlTickPeriod := 1000
  rtlCyclesPerEvent := 1
  localExtmemEnabled := false

/-- The scripts' sequence: hold in reset, then run. -/
theorem reset_contract_scripts :
    ObeySameContract stageADefaults idleBridge verilatedDefaults () [⟨10, 1⟩, ⟨20, 0⟩] :=
  (reset_contract_iff _ _ _ rfl (fun _ _ => rfl) _ _).mpr (by decide)

/-- Releasing the reset before the clock gate. -/
theorem reset_contract_gate_released_last :
    ¬ ∀ writes : List ResetWrite,
      ObeySameContract stageADefaults idleBridge verilatedDefaults () writes := by
  intro h
  have hPending := (h [⟨10, 2⟩, ⟨20, 0⟩]).1
  revert hPending
  decide

end OpenNpux.Device
