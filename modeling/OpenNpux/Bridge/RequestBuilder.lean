import OpenNpux.Bridge.MasterDrivers
import OpenNpux.Lib.Bytes
import OpenNpux.Lib.Prog

/-!
# DMA requests from AXI bursts

The builders accept incrementing bursts that stay inside a page and whose every beat
fits its data word. The read builder fills the request slot only when it accepts; the
write builder clears the slot before it looks at the data, so a rejected burst can
leave it half filled.
-/

namespace OpenNpux.Bridge

open Lib

/-- The capacity `CORAL_GEM5_DMA_DATA_BYTES` of a request. -/
def dmaDataBytes : Nat := 4096

inductive DmaType
  | read | write
deriving DecidableEq

/-- The default value is the slot after `memset`. -/
structure DmaRequest where
  type : DmaType := .read
  addr : UInt32 := 0
  size : Nat := 0
  id : UInt8 := 0
  data : ByteMem := fun _ => 0

namespace AxiAddr

variable (a : AxiAddr)

def bytesPerBeat : Nat := 2 ^ a.size.toNat

def beats : Nat := a.len.toNat + 1

def burstBytes : Nat := a.bytesPerBeat * a.beats

def beatAddr (beat : Nat) : Nat := (a.addr.toNat + beat * a.bytesPerBeat) % 2 ^ 32

def lane (beat : Nat) : Nat := a.beatAddr beat % axiDataBytes

def burstAccepted : Bool := decide (a.size ≤ 4) && a.burst == 1

def pageAccepted : Bool :=
  decide (a.burstBytes ≤ dmaDataBytes) && decide (a.addr.toNat % 4096 + a.burstBytes ≤ 4096)

def laneAccepted (beat : Nat) : Bool := decide (a.lane beat + a.bytesPerBeat ≤ axiDataBytes)

end AxiAddr

/-- The request, the bytes of a beat and the number of beats. -/
def buildGem5DmaReadRequest (a : AxiAddr) : Option (DmaRequest × Nat × Nat) :=
  if a.burstAccepted && a.pageAccepted && (List.range a.beats).all a.laneAccepted then
    some ({ type := .read, addr := a.addr, size := a.burstBytes, id := a.id },
      a.bytesPerBeat, a.beats)
  else none

def AxiWord.byte (word : AxiWord) (lane : Nat) : UInt8 :=
  word ⟨lane % axiDataBytes, Nat.mod_lt _ (by decide)⟩

def AxiWData.strobe (beat : AxiWData) (lane : Nat) : Bool := beat.strb.toNat.testBit lane

def gatherByte (beat : AxiWData) (lane offset : Nat) : Prog DmaRequest Empty Unit := do
  Prog.require (beat.strobe lane)
  Prog.modify fun request =>
    { request with data := request.data.store offset 1 fun _ => beat.data.byte lane }

def gatherBeat (a : AxiAddr) (index : Nat) (beat : AxiWData) : Prog DmaRequest Empty Unit := do
  Prog.require (beat.last == (index + 1 == a.beats))
  Prog.require (a.laneAccepted index)
  Prog.loop a.bytesPerBeat () fun i _ =>
    gatherByte beat (a.lane index + i) (index * a.bytesPerBeat + i)

/-- Runs on the request slot; a rejected run is the source's `return false`. -/
def buildGem5DmaWriteRequest (a : AxiAddr) (data : List AxiWData) :
    Prog DmaRequest Empty Unit := do
  Prog.require a.burstAccepted
  Prog.require (data.length == a.beats && a.pageAccepted)
  Prog.modify fun _ => { type := .write, addr := a.addr, size := a.burstBytes, id := a.id }
  Prog.loop a.beats () fun index _ => gatherBeat a index (data.getD index {})

/-! ## What is accepted, and what is built -/

/-- A burst shape that the read builder accepts. -/
structure AxiAddr.Accepted (a : AxiAddr) : Prop where
  burst : a.burstAccepted = true
  page : a.pageAccepted = true
  lanes : ∀ beat < a.beats, a.laneAccepted beat = true

theorem AxiAddr.accepted_iff (a : AxiAddr) :
    (a.burstAccepted && a.pageAccepted && (List.range a.beats).all a.laneAccepted) = true ↔
      a.Accepted := by
  simp only [Bool.and_eq_true, List.all_eq_true, List.mem_range]
  exact ⟨fun h => ⟨h.1.1, h.1.2, h.2⟩, fun h => ⟨⟨h.burst, h.page⟩, h.lanes⟩⟩

instance (a : AxiAddr) : Decidable a.Accepted := decidable_of_iff _ a.accepted_iff

theorem buildGem5DmaReadRequest_of_accepted {a : AxiAddr} (h : a.Accepted) :
    buildGem5DmaReadRequest a =
      some ({ type := .read, addr := a.addr, size := a.burstBytes, id := a.id },
        a.bytesPerBeat, a.beats) :=
  if_pos (a.accepted_iff.mpr h)

theorem buildGem5DmaReadRequest_of_not_accepted {a : AxiAddr} (h : ¬ a.Accepted) :
    buildGem5DmaReadRequest a = none :=
  if_neg fun hAll => h (a.accepted_iff.mp hAll)

/-- The data beats a burst needs: their number, `WLAST` on the last one only, and a strobe
on every active lane. -/
structure CompleteBeats (a : AxiAddr) (data : List AxiWData) : Prop where
  length : data.length = a.beats
  last : ∀ i < a.beats, (data.getD i {}).last = (i + 1 == a.beats)
  strobes : ∀ i < a.beats, ∀ j < a.bytesPerBeat, (data.getD i {}).strobe (a.lane i + j) = true

/-- Byte `offset` of a burst, taken from its beat and lane. -/
def burstByte (a : AxiAddr) (data : List AxiWData) (offset : Nat) : UInt8 :=
  (data.getD (offset / a.bytesPerBeat) {}).data.byte
    (a.lane (offset / a.bytesPerBeat) + offset % a.bytesPerBeat)

def readRequest (a : AxiAddr) : DmaRequest :=
  { type := .read, addr := a.addr, size := a.burstBytes, id := a.id }

/-- The request of an accepted write burst, once `n` of its bytes are gathered. -/
def writeRequestUpTo (a : AxiAddr) (data : List AxiWData) (n : Nat) : DmaRequest :=
  { type := .write
    addr := a.addr
    size := a.burstBytes
    id := a.id
    data := fun offset => if offset < n then burstByte a data offset else 0 }

def writeRequest (a : AxiAddr) (data : List AxiWData) : DmaRequest :=
  writeRequestUpTo a data a.burstBytes

theorem AxiAddr.bytesPerBeat_pos (a : AxiAddr) : 0 < a.bytesPerBeat := Nat.two_pow_pos _

theorem AxiAddr.beats_pos (a : AxiAddr) : 0 < a.beats := Nat.succ_pos _

section Gather

variable {a : AxiAddr} {data : List AxiWData}

theorem gatherByte_gathers {index i : Nat} (hi : i < a.bytesPerBeat) :
    (gatherByte (data.getD index {}) (a.lane index + i) (index * a.bytesPerBeat + i)).Sat
      (· = writeRequestUpTo a data (index * a.bytesPerBeat + i)) (fun _ => True)
      fun _ => (· = writeRequestUpTo a data (index * a.bytesPerBeat + (i + 1))) := by
  have hBeat : (index * a.bytesPerBeat + i) / a.bytesPerBeat = index := by
    rw [Nat.mul_comm, Nat.mul_add_div a.bytesPerBeat_pos, Nat.div_eq_of_lt hi, Nat.add_zero]
  have hLane : (index * a.bytesPerBeat + i) % a.bytesPerBeat = i := by
    rw [Nat.mul_comm, Nat.mul_add_mod, Nat.mod_eq_of_lt hi]
  refine (Prog.Sat.guard _).bind fun _ => .modify ?_
  rintro request rfl
  simp only [writeRequestUpTo, DmaRequest.mk.injEq, true_and]
  funext offset
  rcases Nat.lt_trichotomy offset (index * a.bytesPerBeat + i) with hBefore | rfl | hAfter
  · rw [ByteMem.store_outside _ _ (by omega), if_pos hBefore, if_pos (by omega)]
  · rw [ByteMem.store_inside _ _ (by omega), if_pos (by omega), burstByte, hBeat, hLane]
  · rw [ByteMem.store_outside _ _ (by omega), if_neg (by omega), if_neg (by omega)]

theorem gatherBeat_gathers (index : Nat) :
    (gatherBeat a index (data.getD index {})).Sat
      (· = writeRequestUpTo a data (index * a.bytesPerBeat)) (fun _ => True)
      fun _ => (· = writeRequestUpTo a data ((index + 1) * a.bytesPerBeat)) := by
  refine (Prog.Sat.guard _).bind fun _ => (Prog.Sat.guard _).bind fun _ => ?_
  rw [Nat.succ_mul]
  exact Prog.Sat.loop (I := fun i _ => (· = writeRequestUpTo a data (index * a.bytesPerBeat + i)))
    (fun _ h => h) fun i hi _ => gatherByte_gathers hi

theorem gatherBeat_yields (index : Nat) (beat : AxiWData) :
    (gatherBeat a index beat).Yields (fun _ => True) fun _ =>
      beat.last = (index + 1 == a.beats) ∧ a.laneAccepted index = true ∧
        ∀ j < a.bytesPerBeat, beat.strobe (a.lane index + j) = true := by
  refine (Prog.Yields.require _).bind fun _ hLast => ?_
  refine (Prog.Yields.require _).bind fun _ hLane => ?_
  refine (Prog.Yields.loop (I := fun i _ => ∀ j < i, beat.strobe (a.lane index + j) = true)
    (by simp) fun i _ _ hBefore => ?_).mono fun _ hStrobes =>
      ⟨beq_iff_eq.mp hLast, hLane, hStrobes⟩
  refine (Prog.Yields.require _).bind fun _ hStrobe => (Prog.Yields.modify _).mono
    fun _ _ j hj => ?_
  rcases Nat.lt_succ_iff_lt_or_eq.mp hj with hLess | rfl
  · exact hBefore j hLess
  · exact hStrobe

theorem buildGem5DmaWriteRequest_yields :
    (buildGem5DmaWriteRequest a data).Yields (fun _ => True)
      fun _ => a.Accepted ∧ CompleteBeats a data := by
  refine (Prog.Yields.require _).bind fun _ hBurst => ?_
  refine (Prog.Yields.require _).bind fun _ hShape => ?_
  refine (Prog.Yields.modify _).bind fun _ _ => ?_
  simp only [Bool.and_eq_true, beq_iff_eq] at hShape
  refine (Prog.Yields.loop (I := fun n _ => ∀ i < n,
      (data.getD i {}).last = (i + 1 == a.beats) ∧ a.laneAccepted i = true ∧
        ∀ j < a.bytesPerBeat, (data.getD i {}).strobe (a.lane i + j) = true)
    (by simp) fun n _ _ hBefore => ?_).mono fun _ h => ?_
  · refine (gatherBeat_yields n _).mono fun _ hBeat i hi => ?_
    rcases Nat.lt_succ_iff_lt_or_eq.mp hi with hLess | rfl
    · exact hBefore i hLess
    · exact hBeat
  · exact ⟨⟨hBurst, hShape.2, fun i hi => (h i hi).2.1⟩,
      ⟨hShape.1, fun i hi => (h i hi).1, fun i hi => (h i hi).2.2⟩⟩

theorem buildGem5DmaWriteRequest_gathers :
    (buildGem5DmaWriteRequest a data).Sat (fun _ => True) (fun _ => True)
      fun _ => (· = writeRequest a data) := by
  refine (Prog.Sat.guard _).bind fun _ => (Prog.Sat.guard _).bind fun _ => ?_
  refine Prog.Sat.bind (Q := fun _ => (· = writeRequestUpTo a data 0)) (.modify fun _ _ => ?_)
    fun _ => ?_
  · simp only [writeRequestUpTo, Nat.not_lt_zero, if_false]
  · rw [writeRequest, AxiAddr.burstBytes, Nat.mul_comm]
    exact Prog.Sat.loop (I := fun n _ => (· = writeRequestUpTo a data (n * a.bytesPerBeat)))
      (fun _ h => by rwa [Nat.zero_mul]) fun n _ _ => gatherBeat_gathers n

theorem buildGem5DmaWriteRequest_total (hAccepted : a.Accepted) (hBeats : CompleteBeats a data) :
    (buildGem5DmaWriteRequest a data).Total := by
  refine (Prog.Total.require hAccepted.burst).bind fun _ => ?_
  refine (Prog.Total.require (by simp [hBeats.length, hAccepted.page])).bind fun _ => ?_
  refine (Prog.Total.modify _).bind fun _ => .loop fun i hi _ => ?_
  refine (Prog.Total.require (by simpa using hBeats.last i hi)).bind fun _ => ?_
  refine (Prog.Total.require (hAccepted.lanes i hi)).bind fun _ => .loop fun j hj _ => ?_
  exact (Prog.Total.require (hBeats.strobes i hi j hj)).bind fun _ => .modify _

theorem buildGem5DmaWriteRequest_accepts_iff (slot : DmaRequest) :
    (buildGem5DmaWriteRequest a data slot).result.isSome = true ↔
      a.Accepted ∧ CompleteBeats a data := by
  constructor
  · intro h
    obtain ⟨u, hu⟩ := Option.isSome_iff_exists.mp h
    exact buildGem5DmaWriteRequest_yields.returned hu
  · rintro ⟨hAccepted, hBeats⟩
    exact buildGem5DmaWriteRequest_total hAccepted hBeats slot

/-- The checks that the write builder makes before it clears the slot. -/
def shapeAccepted (a : AxiAddr) (data : List AxiWData) : Bool :=
  a.burstAccepted && (data.length == a.beats && a.pageAccepted)

theorem shapeAccepted_of_built (h : a.Accepted ∧ CompleteBeats a data) :
    shapeAccepted a data = true := by
  rw [shapeAccepted, h.1.burst, h.1.page, h.2.length]
  simp

theorem buildGem5DmaWriteRequest_keeps_slot (h : shapeAccepted a data = false) (slot : DmaRequest) :
    (buildGem5DmaWriteRequest a data slot).state = slot := by
  rw [shapeAccepted, Bool.and_eq_false_iff] at h
  cases hBurst : a.burstAccepted with
  | false =>
    rw [buildGem5DmaWriteRequest, Prog.bind_rejected (by simp [hBurst])]
    rfl
  | true =>
    have hShape := h.resolve_left (by simp [hBurst])
    rw [buildGem5DmaWriteRequest, Prog.bind_returned (a := ()) (by simp [hBurst]),
      Prog.bind_rejected (by simp [hShape])]
    rfl

end Gather
end OpenNpux.Bridge
