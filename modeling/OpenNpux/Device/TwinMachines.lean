import OpenNpux.Bridge.ServedClock
import OpenNpux.Device.RtlMachine

/-!
# A core before the two bridges

The same core runs before a bridge with a local EXTMEM and before one whose requests a peer
answers. It sees its ports alone. Clock by clock it shows the same pins, and the second
machine only stops more often, at each request.
-/

namespace OpenNpux.Bridge

open Lib

def Observation.clock? : Observation → Option CoreClock
  | .clock c => some c
  | .completion .. => none

/-- The clocks of a history, without the completions between them. -/
def clocksOf (history : List Observation) : List CoreClock := history.filterMap Observation.clock?

/-- The core reads nothing of the bridge but the drivers on its two master ports. -/
def RtlModel.SeesPorts {C : Type} (rtl : RtlModel C) : Prop :=
  ∀ core h h', h.masterRead = h'.masterRead → h.masterWrite = h'.masterWrite →
    rtl.clock core h = rtl.clock core h'

variable {r : ServedRange} {memory : ByteMem} {h h' : Handle}

theorem Twin.stopCode_eq (hTwin : Twin r memory h h') : h'.stopCode = h.stopCode := by
  obtain ⟨extmem, slot, beatSize, beatCount, rfl⟩ := hTwin.same
  rfl

theorem Twin.idle_right (hTwin : Twin r memory h h') : h'.dmaPending = false := by
  obtain ⟨extmem, slot, beatSize, beatCount, rfl⟩ := hTwin.same
  exact hTwin.idle

theorem Twin.rtlCycles_eq (hTwin : Twin r memory h h') : h'.rtlCycles = h.rtlCycles := by
  obtain ⟨extmem, slot, beatSize, beatCount, rfl⟩ := hTwin.same
  rfl

theorem Clocked.twin_of_idle (hClocked : Clocked r memory h h') (hIdle : h'.dmaPending = false) :
    Twin r memory h h' := by
  cases hClocked with
  | twin hTwin => exact hTwin
  | read => cases hIdle
  | write => cases hIdle

theorem Clocked.stopped (hClocked : Clocked r memory h h') {code : Int}
    (hStopped : h'.stopCode = some code) (hOther : code ≠ 2) :
    h'.dmaPending = false ∧ h.stopCode = some code := by
  have hIdle : h'.dmaPending = false := by
    cases hPending : h'.dmaPending with
    | false => rfl
    | true =>
      rw [Handle.stopCode, hPending] at hStopped
      exact absurd (Option.some.inj hStopped).symm hOther
  exact ⟨hIdle, (hClocked.twin_of_idle hIdle).stopCode_eq.symm.trans hStopped⟩

theorem Clocked.rtlCycles_eq (hClocked : Clocked r memory h h') : h'.rtlCycles = h.rtlCycles := by
  cases hClocked with
  | twin hTwin => exact hTwin.rtlCycles_eq
  | read a hTwin => exact hTwin.rtlCycles_eq
  | write a data hTwin => exact hTwin.rtlCycles_eq

theorem Clocked.request (hClocked : Clocked r memory h h') (hPending : h'.dmaPending = true) :
    ∃ a : AxiAddr, a.Accepted ∧ r.Holds a ∧ h'.pendingDma.addr = a.addr ∧
      h'.pendingDma.size = a.burstBytes := by
  cases hClocked with
  | twin hTwin =>
    obtain ⟨extmem, slot, beatSize, beatCount, rfl⟩ := hTwin.same
    exact absurd (hTwin.idle.symm.trans hPending) (by decide)
  | read a _ hAccepted hInside => exact ⟨a, hAccepted, hInside, rfl, rfl⟩
  | write a data _ hAccepted hInside =>
    refine ⟨a, hAccepted, hInside, ?_, ?_⟩
    · rfl
    · rfl

theorem Clocked.dmaComplete_eq (hClocked : Clocked r memory h h') (hPending : h'.dmaPending = true)
    {payload : ByteMem} (hPayload : ∀ i < h'.pendingDma.size, h'.pendingDma.type = .read →
      payload i = memory (h'.pendingDma.addr.toNat - extmemBase + i)) :
    h'.dmaComplete (if h'.pendingDma.type = .read then some (payload, h'.pendingDma.size) else none)
        false = ((peerServe h' memory).1, 0) ∧
      (peerServe h' memory).2 = if h'.pendingDma.type = .read then memory else
        memory.store (h'.pendingDma.addr.toNat - extmemBase) h'.pendingDma.size
          h'.pendingDma.data := by
  cases hClocked with
  | twin hTwin =>
    obtain ⟨extmem, slot, beatSize, beatCount, rfl⟩ := hTwin.same
    exact absurd (hTwin.idle.symm.trans hPending) (by decide)
  | @read g g' a _ _ _ =>
    have hBytes : ∀ i < a.burstBytes, payload i = memory (a.addr.toNat - extmemBase + i) :=
      fun i hi => hPayload i hi rfl
    have hBeats := dataBeats_congr hBytes
    simp only [readRequest] at hBeats
    rw [peerServe_deferRead]
    refine ⟨?_, rfl⟩
    simp [Handle.dmaComplete, Handle.deferRead, readRequest, Handle.queueRead,
      Handle.clearSlot, hBeats]
  | @write g g' a data _ _ _ =>
    rw [peerServe_deferWrite]
    constructor
    · simp [Handle.dmaComplete, Handle.deferWrite, Handle.clearSlot, Handle.queueWrite,
        writeRequest, writeRequestUpTo]
    · rw [← store_writeRequest]
      simp [Handle.deferWrite, writeRequest, writeRequestUpTo]

namespace Machine

variable {C F : Type} (cfg : BridgeConfig F) (rtl : RtlModel C)

def Live (m : Machine C) (n : Nat) : Prop := ∀ k < n, ((turn cfg rtl)^[k] m).handle.stopCode = none

def OrderlyRun (r : ServedRange) (m : Machine C) : Prop :=
  ∀ k, Orderly r ((turn cfg rtl)^[k] m).handle
    (rtl.clock ((turn cfg rtl)^[k] m).core ((turn cfg rtl)^[k] m).handle).2

/-- The two machines have run the same clocks, and their bridges are related. -/
structure Shadows (R : Handle → Handle → Prop) (m m' : Machine C) : Prop where
  core : m'.core = m.core
  clocks : clocksOf m'.history = clocksOf m.history
  handle : R m.handle m'.handle

variable {cfg rtl} {m m' : Machine C} {n k : Nat}

theorem Live.zero : Live cfg rtl m 0 := fun _ h => absurd h (Nat.not_lt_zero _)

theorem Live.add (h : Live cfg rtl m n) (h' : Live cfg rtl ((turn cfg rtl)^[n] m) k) :
    Live cfg rtl m (n + k) := by
  intro i hi
  rcases Nat.lt_or_ge i n with hFirst | hLater
  · exact h i hFirst
  · obtain ⟨j, rfl⟩ := Nat.exists_eq_add_of_le hLater
    rw [Nat.add_comm, Function.iterate_add_apply]
    exact h' j (by omega)

theorem Live.one (h : m.handle.stopCode = none) : Live cfg rtl m 1 := by
  intro i hi
  obtain rfl : i = 0 := by omega
  exact h

theorem Live.le_of_stopped (h : Live cfg rtl m n)
    (hStopped : ((turn cfg rtl)^[k] m).handle.stopCode ≠ none) : n ≤ k := by
  by_contra hLater
  exact hStopped (h k (by omega))

theorem exists_live (m : Machine C) (n : Nat) :
    ∃ i ≤ n, Live cfg rtl m i ∧ (turn cfg rtl)^[n] m = (turn cfg rtl)^[i] m ∧
      (i = n ∨ ((turn cfg rtl)^[i] m).handle.stopCode ≠ none) := by
  induction n with
  | zero => exact ⟨0, Nat.le_refl 0, .zero, rfl, .inl rfl⟩
  | succ n ih =>
    obtain ⟨i, hi, hLive, hSame, hEnd⟩ := ih
    by_cases hStop : ((turn cfg rtl)^[i] m).handle.stopCode = none
    · obtain rfl : i = n := hEnd.resolve_right (not_not.mpr hStop)
      exact ⟨i + 1, Nat.le_refl _, hLive.add (.one hStop), rfl, .inl rfl⟩
    · refine ⟨i, by omega, hLive, ?_, .inr hStop⟩
      rw [Function.iterate_succ_apply', hSame]
      exact if_neg hStop

theorem turn_history_prefix (m : Machine C) (hLess : n ≤ k) :
    ((turn cfg rtl)^[n] m).history <+: ((turn cfg rtl)^[k] m).history := by
  induction k, hLess using Nat.le_induction with
  | base => exact List.prefix_refl _
  | succ k _ ih =>
    refine ih.trans ?_
    rw [Function.iterate_succ_apply', turn]
    split
    · exact List.prefix_append _ _
    · exact List.prefix_refl _

theorem OrderlyRun.shift (h : OrderlyRun cfg rtl r m) (n : Nat) :
    OrderlyRun cfg rtl r ((turn cfg rtl)^[n] m) := by
  intro k
  rw [← Function.iterate_add_apply]
  exact h (k + n)

theorem OrderlyRun.exists_twin (hOrderly : OrderlyRun cfg rtl r m)
    (hStart : Twin r memory m.handle h) (n : Nat) :
    ∃ memory' h', Twin r memory' ((turn cfg rtl)^[n] m).handle h' := by
  induction n with
  | zero => exact ⟨memory, h, hStart⟩
  | succ n ih =>
    obtain ⟨memory', h', hTwin⟩ := ih
    rw [Function.iterate_succ_apply', turn]
    split
    · have hClocked : Clocked r memory' (((turn cfg rtl)^[n] m).clock cfg rtl).handle _ :=
        hTwin.stepClock (hOrderly n)
      exact ⟨_, _, hClocked.answered⟩
    · exact ⟨memory', h', hTwin⟩

theorem step_handle (m : Machine C) (hn : n ≠ 0) :
    (m.step cfg rtl n).1.handle = ((turn cfg rtl)^[n] m).handle := by
  rw [step_eq m hn]

theorem Shadows.step {R : Handle → Handle → Prop} (h : Shadows R m ((turn cfg rtl)^[n] m'))
    (hn : n ≠ 0) : Shadows R m (m'.step cfg rtl n).1 := by
  rw [step_eq m' hn]
  exact ⟨h.core, h.clocks, h.handle⟩

theorem dmaComplete_taken {payload : Option (ByteMem × Nat)} {error : Bool}
    (h : m.handle.dmaComplete payload error = (h', 0)) :
    ∃ m', m.dmaComplete payload error = (m', 0) ∧ m'.core = m.core ∧ m'.handle = h' ∧
      clocksOf m'.history = clocksOf m.history := by
  refine ⟨(m.dmaComplete payload error).1, ?_, rfl, ?_, ?_⟩
  · rw [Machine.dmaComplete, h]
  · rw [Machine.dmaComplete, h]
  · rw [Machine.dmaComplete, clocksOf, clocksOf, List.filterMap_append]
    exact List.append_nil _

section Shadows

variable (hPorts : rtl.SeesPorts)
include hPorts

theorem Shadows.clock (hShadows : Shadows (Twin r memory) m m')
    (hOrderly : Orderly r m.handle (rtl.clock m.core m.handle).2) :
    Shadows (Clocked r memory) (m.clock cfg rtl) (m'.clock cfg rtl) := by
  have hTwin := hShadows.handle
  have hNext : rtl.clock m'.core m'.handle = rtl.clock m.core m.handle := by
    rw [hShadows.core]
    exact hPorts _ _ _ hTwin.masterRead_eq hTwin.sameRegisters.masterWrite
  refine ⟨?_, ?_, ?_⟩
  · simp only [Machine.clock, hNext]
  · simp only [Machine.clock, clocksOf, List.filterMap_append, hNext]
    exact congrArg (· ++ _) hShadows.clocks
  · simp only [Machine.clock, hNext]
    exact hTwin.stepClock hOrderly

theorem Shadows.turns (hShadows : Shadows (Twin r memory) m m')
    (hOrderly : OrderlyRun cfg rtl r m) (n : Nat) :
    ∃ i ≤ n, Live cfg rtl m i ∧ (n ≠ 0 → m.handle.stopCode = none → i ≠ 0) ∧
      Shadows (Clocked r memory) ((turn cfg rtl)^[i] m) ((turn cfg rtl)^[n] m') := by
  induction n generalizing m m' with
  | zero =>
    exact ⟨0, Nat.le_refl 0, .zero, fun h => absurd rfl h, hShadows.core, hShadows.clocks,
      .twin hShadows.handle⟩
  | succ n ih =>
    by_cases hStop : m.handle.stopCode = none
    · have hClocked : Shadows (Clocked r memory) (m.clock cfg rtl) (m'.clock cfg rtl) :=
        hShadows.clock hPorts (hOrderly 0)
      have hTurn : turn cfg rtl m = m.clock cfg rtl := if_pos hStop
      have hTurn' : turn cfg rtl m' = m'.clock cfg rtl :=
        if_pos (hShadows.handle.stopCode_eq.trans hStop)
      rw [Function.iterate_succ_apply, hTurn']
      cases hPending : (m'.clock cfg rtl).handle.dmaPending with
      | true =>
        -- The request stops the turns here.
        have hStopped : (m'.clock cfg rtl).handle.stopCode ≠ none := by
          rw [Handle.stopCode, hPending]
          simp
        rw [turn_stopped hStopped]
        refine ⟨1, by omega, .one hStop, fun _ _ => Nat.one_ne_zero, ?_⟩
        rw [Function.iterate_one, hTurn]
        exact hClocked
      | false =>
        have hTwin : Shadows (Twin r memory) (m.clock cfg rtl) (m'.clock cfg rtl) :=
          ⟨hClocked.core, hClocked.clocks, hClocked.handle.twin_of_idle hPending⟩
        have hRest : OrderlyRun cfg rtl r (m.clock cfg rtl) := hTurn ▸ hOrderly.shift 1
        obtain ⟨i, hLess, hLive, -, hAfter⟩ := ih hTwin hRest
        rw [← hTurn] at hLive hAfter
        refine ⟨1 + i, by omega, (Live.one hStop).add hLive, fun _ _ => by omega, ?_⟩
        rw [Nat.add_comm, Function.iterate_succ_apply]
        exact hAfter
    · have hStopped : m'.handle.stopCode ≠ none := hShadows.handle.stopCode_eq ▸ hStop
      rw [turn_stopped hStopped]
      exact ⟨0, Nat.zero_le _, .zero, fun _ h => absurd h hStop, hShadows.core, hShadows.clocks,
        .twin hShadows.handle⟩

end Shadows
end Machine
end OpenNpux.Bridge
