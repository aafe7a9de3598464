import OpenNpux.Bridge.CustomMac

/-!
# Gating the clock of the custom MAC

The bridge object keeps a cycle budget beside the countdown of the RTL block and clocks
the block only while the budget lasts. Register writes clock the block too, and a command
written to a busy block is dropped but renews the budget. As long as every write goes to
the block's own window, the budget covers the countdown, so a clock that is left out
would have changed nothing.
-/

namespace OpenNpux.Bridge

/-- The block counts down and needs at most `n` more clocks. -/
def MacRtl.Counting (r : MacRtl) (n : Nat) : Prop :=
  r.busy = true → 1 ≤ r.countdown.toNat ∧ r.countdown.toNat ≤ n

namespace MacRtl

variable {r : MacRtl} {n : Nat}

theorem countDown_of_idle (h : r.busy = false) : r.countDown = r := by
  rw [countDown, h]
  rfl

theorem Counting.mono {k : Nat} (h : r.Counting k) (hLe : k ≤ n) : r.Counting n :=
  fun hBusy => ⟨(h hBusy).1, Nat.le_trans (h hBusy).2 hLe⟩

theorem Counting.idle (h : r.Counting 0) : r.busy = false := by
  by_contra hBusy
  have := h (Bool.of_not_eq_false hBusy)
  omega

theorem Counting.countDown (h : r.Counting n) : r.countDown.Counting (n - 1) := by
  cases hBusy : r.busy with
  | false =>
    rw [countDown_of_idle hBusy]
    intro hTrue
    exact absurd (hBusy.symm.trans hTrue) Bool.false_ne_true
  | true =>
    obtain ⟨hLow, hHigh⟩ := h hBusy
    by_cases hLast : r.countdown = 1
    · intro hStill
      simp [MacRtl.countDown, hBusy, hLast] at hStill
    · have hMore : r.countDown =
          { r with cycles := r.cycles + 1, countdown := r.countdown - 1 } := by
        rw [MacRtl.countDown, if_pos hBusy, if_neg hLast]
      have hNotOne : r.countdown.toNat ≠ 1 := fun hOne => hLast (BitVec.eq_of_toNat_eq hOne)
      rw [hMore]
      intro _
      have hLess : (r.countdown - 1).toNat = r.countdown.toNat - 1 :=
        BitVec.toNat_sub_of_le (by bv_omega)
      dsimp only
      omega

theorem posedge_cases (r : MacRtl) (write : Option (UInt8 × UInt32)) :
    (∃ value, write = some (0x0c, value) ∧ value &&& 1 = 1 ∧ r.busy = false ∧
        (r.posedge write).countdown = 3) ∨
      ((r.posedge write).busy = r.countDown.busy ∧
        (r.posedge write).countdown = r.countDown.countdown) := by
  unfold posedge
  split
  case h_5 value =>
    by_cases hStart : value &&& 1 = 1 ∧ r.busy = false
    · exact .inl ⟨value, rfl, hStart.1, hStart.2, by rw [if_pos hStart]⟩
    · exact .inr (by rw [if_neg hStart]; exact ⟨rfl, rfl⟩)
  all_goals exact .inr ⟨rfl, rfl⟩

theorem Counting.posedge (h : r.Counting 3) (write : Option (UInt8 × UInt32)) :
    (r.posedge write).Counting 3 := by
  intro hBusy
  rcases r.posedge_cases write with ⟨_, _, _, _, hThree⟩ | ⟨hBusyEq, hCountEq⟩
  · rw [hThree]
    decide
  · rw [hCountEq]
    exact h.countDown.mono (by decide) (hBusyEq ▸ hBusy)

end MacRtl

inductive MacCall
  | write (addr value : UInt32)
  | read (addr : UInt32)
  | reset
  | clock
deriving DecidableEq

/-- The bridge writes only to addresses that the object contains. -/
def MacCall.Guarded : MacCall → Prop
  | .write addr _ => Gem5CustomMac.contains addr.toNat 4 = true
  | _ => True

instance (c : MacCall) : Decidable c.Guarded := by
  cases c <;> unfold MacCall.Guarded <;> infer_instance

namespace Gem5CustomMac

section Calls

-- What a step of the bridge does with the object.
variable (tick : Gem5CustomMac → Gem5CustomMac)

def call (mac : Gem5CustomMac) : MacCall → Gem5CustomMac
  | .write addr value => mac.write32 addr.toNat value
  | .read _ => mac
  | .reset => mac.reset
  | .clock => tick mac

/-- What the calls of `Read32` return, in their order. -/
def reads (mac : Gem5CustomMac) : List MacCall → List UInt32
  | [] => []
  | .read addr :: calls => mac.read32 addr.toNat :: reads mac calls
  | c :: calls => reads (mac.call tick c) calls

end Calls

/-- The budget covers what is left of the countdown. -/
structure Budgeted (mac : Gem5CustomMac) : Prop where
  budget : mac.activeCycles ≤ 3
  counting : mac.model.Counting mac.activeCycles

theorem Budgeted.init : ({} : Gem5CustomMac).Budgeted :=
  ⟨Nat.zero_le _, fun h => absurd h Bool.false_ne_true⟩

theorem Budgeted.stepIfActive {mac : Gem5CustomMac} (h : mac.Budgeted) :
    mac.stepIfActive.Budgeted := by
  unfold Gem5CustomMac.stepIfActive
  split
  · exact h
  · exact ⟨Nat.le_trans (Nat.sub_le _ _) h.budget, h.counting.countDown⟩

/-- Inside the window only the command register has the command's address input. -/
theorem command_of_contains {addr : Nat} (hContains : contains addr 4 = true)
    (hInput : addrInput addr = 0x0c) : addr = macBase + 0x0c := by
  simp only [contains, Bool.and_eq_true, decide_eq_true_eq] at hContains
  have hNat := congrArg UInt8.toNat hInput
  simp only [addrInput, UInt8.toNat_ofNat', UInt8.reduceToNat] at hNat
  unfold macBase macSize at *
  omega

theorem write32_model (mac : Gem5CustomMac) (addr : Nat) (value : UInt32) :
    (mac.write32 addr value).model = mac.model.posedge (some (addrInput addr, value)) := by
  unfold write32
  dsimp only
  split <;> with_reducible rfl

theorem Budgeted.write32 {mac : Gem5CustomMac} (h : mac.Budgeted) {addr : Nat}
    (hContains : contains addr 4 = true) (value : UInt32) : (mac.write32 addr value).Budgeted := by
  unfold Gem5CustomMac.write32
  dsimp only
  split
  · refine ⟨Nat.le_refl 3, ?_⟩
    dsimp only
    exact (h.counting.mono h.budget).posedge _
  · rename_i hOther
    refine ⟨h.budget, fun hBusy => ?_⟩
    rcases mac.model.posedge_cases (some (addrInput addr, value)) with
      ⟨_, hWrite, hBit, _, _⟩ | ⟨hBusyEq, hCountEq⟩
    · obtain ⟨hInput, rfl⟩ := Prod.mk.inj (Option.some.inj hWrite)
      exact absurd ⟨command_of_contains hContains hInput, by rw [hBit]; decide⟩ hOther
    · rw [hCountEq]
      exact h.counting.countDown.mono (Nat.sub_le _ _) (hBusyEq ▸ hBusy)

theorem Budgeted.call {mac : Gem5CustomMac} (h : mac.Budgeted) {c : MacCall} (hc : c.Guarded) :
    (mac.call Gem5CustomMac.stepIfActive c).Budgeted := by
  cases c with
  | write addr value => exact h.write32 hc value
  | read => exact h
  | reset => exact .init
  | clock => exact h.stepIfActive

theorem Budgeted.foldl {mac : Gem5CustomMac} (h : mac.Budgeted) {calls : List MacCall}
    (hCalls : ∀ c ∈ calls, c.Guarded) :
    (calls.foldl (Gem5CustomMac.call Gem5CustomMac.stepIfActive) mac).Budgeted := by
  induction calls generalizing mac with
  | nil => exact h
  | cons c calls ih =>
    rw [List.forall_mem_cons] at hCalls
    exact ih (h.call hCalls.1) hCalls.2

/-- A clock that the budget leaves out would not have changed the block. -/
theorem Budgeted.stepIfActive_model {mac : Gem5CustomMac} (h : mac.Budgeted) :
    mac.stepIfActive.model = mac.step.model := by
  unfold Gem5CustomMac.stepIfActive
  split
  · rename_i hZero
    exact (MacRtl.countDown_of_idle (hZero ▸ h.counting).idle).symm
  · rfl

theorem Budgeted.call_model {mac other : Gem5CustomMac} (h : mac.Budgeted)
    (hModel : mac.model = other.model) (c : MacCall) :
    (mac.call Gem5CustomMac.stepIfActive c).model = (other.call step c).model := by
  cases c with
  | write addr value =>
    simp only [Gem5CustomMac.call, write32_model, hModel]
  | read => exact hModel
  | reset => rfl
  | clock =>
    rw [Gem5CustomMac.call, h.stepIfActive_model, step, hModel]
    rfl

theorem Budgeted.reads_eq {mac other : Gem5CustomMac} (h : mac.Budgeted)
    (hModel : mac.model = other.model) {calls : List MacCall}
    (hCalls : ∀ c ∈ calls, c.Guarded) :
    mac.reads Gem5CustomMac.stepIfActive calls = other.reads step calls := by
  induction calls generalizing mac other with
  | nil => rfl
  | cons c calls ih =>
    rw [List.forall_mem_cons] at hCalls
    have hRest := ih (h.call hCalls.1) (h.call_model hModel c) hCalls.2
    cases c with
    | read addr =>
      simp only [reads, read32, hModel]
      exact congrArg _ hRest
    | write addr value => exact hRest
    | reset => exact hRest
    | clock => exact hRest

/-- Gating is invisible, and the budget covers the countdown. -/
theorem gating_invisible {calls : List MacCall} (hCalls : ∀ c ∈ calls, c.Guarded) :
    reads stepIfActive {} calls = reads step {} calls ∧
      ∀ mac, mac = calls.foldl (call stepIfActive) {} → mac.model.busy = true →
        mac.activeCycles ≥ mac.model.countdown.toNat ∧ mac.model.countdown.toNat ≥ 1 := by
  refine ⟨Budgeted.init.reads_eq rfl hCalls, ?_⟩
  rintro mac rfl hBusy
  obtain ⟨hLow, hHigh⟩ := (Budgeted.init.foldl hCalls).counting hBusy
  exact ⟨hHigh, hLow⟩

/-- A command, and another one while the first runs. -/
theorem gating_invisible_two_commands :
    reads stepIfActive {} [.write 0x3000000c 1, .clock, .write 0x3000000c 1, .read 0x30000014,
        .clock, .clock, .read 0x30000014] = [2, 1] ∧
      reads stepIfActive {} [.write 0x3000000c 1, .clock, .write 0x3000000c 1, .read 0x30000014,
        .clock, .clock, .read 0x30000014] =
      reads step {} [.write 0x3000000c 1, .clock, .write 0x3000000c 1, .read 0x30000014,
        .clock, .clock, .read 0x30000014] :=
  ⟨by decide, (gating_invisible (by decide)).1⟩

/-- Outside the window the command register has further addresses, which start the block
without a budget. -/
theorem gating_visible_outside :
    reads stepIfActive {} [.write 0x3000010c 1, .clock, .clock, .clock, .read 0x30000014] = [2] ∧
      reads step {} [.write 0x3000010c 1, .clock, .clock, .clock, .read 0x30000014] = [1] := by
  decide

/-- The states that calls with any addresses lead to. -/
def Reachable (mac : Gem5CustomMac) : Prop :=
  ∃ calls : List MacCall, mac = calls.foldl (call stepIfActive) {}

theorem counting_stepIfActive {mac : Gem5CustomMac} {n : Nat} (h : mac.model.Counting n) :
    mac.stepIfActive.model.Counting n := by
  unfold stepIfActive
  split
  · exact h
  · exact h.countDown.mono (Nat.sub_le _ _)

theorem counting_call {mac : Gem5CustomMac} (h : mac.model.Counting 3) (c : MacCall) :
    (mac.call stepIfActive c).model.Counting 3 := by
  cases c with
  | write addr value =>
    rw [call, write32_model]
    exact h.posedge _
  | read => exact h
  | reset => exact fun hBusy => absurd hBusy Bool.false_ne_true
  | clock => exact counting_stepIfActive h

theorem Reachable.counting {mac : Gem5CustomMac} (h : mac.Reachable) : mac.model.Counting 3 := by
  obtain ⟨calls, rfl⟩ := h
  refine List.foldlRecOn (motive := fun mac : Gem5CustomMac => mac.model.Counting 3) calls _ ?_ ?_
  · intro hBusy
    exact absurd hBusy Bool.false_ne_true
  · intro mac hCounting c _
    exact counting_call hCounting c

end Gem5CustomMac
end OpenNpux.Bridge
