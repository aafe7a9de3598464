import OpenNpux.Bridge.Handle
import OpenNpux.Lib.WriteLog

/-!
# The local EXTMEM as one byte-addressed memory

Write bursts are gathered from byte lanes and read bursts are scattered to them by
separate code. Seen from the core, a lane of a beat stands for one byte address, and a
read returns for it the byte that was written there last, whatever the shapes of the
bursts were.
-/

namespace OpenNpux.Bridge

open Lib

inductive Burst
  | read (a : AxiAddr)
  | write (a : AxiAddr) (data : List AxiWData)

def Burst.addr : Burst → AxiAddr
  | .read a => a
  | .write a _ => a

def InAperture (a : AxiAddr) : Prop :=
  extmemBase ≤ a.addr.toNat ∧ a.addr.toNat + a.burstBytes ≤ extmemBase + extmemSize

instance (a : AxiAddr) : Decidable (InAperture a) := inferInstanceAs (Decidable (_ ∧ _))

/-- The builder of its direction accepts the burst. -/
def Burst.Built : Burst → Prop
  | .read a => (buildGem5DmaReadRequest a).isSome = true
  | .write a data => (buildGem5DmaWriteRequest a data {}).result.isSome = true

instance : (b : Burst) → Decidable b.Built
  | .read _ => inferInstanceAs (Decidable (_ = true))
  | .write _ _ => inferInstanceAs (Decidable (_ = true))

def Burst.serve {F : Type} (cfg : BridgeConfig F) (h : Handle) : Burst → Handle
  | .read a => h.readCallback cfg a
  | .write a data => h.writeCallback cfg a data

def AxiAddr.ActiveLane (a : AxiAddr) (beat l : Nat) : Prop :=
  a.beatAddr beat % 16 ≤ l ∧ l < a.beatAddr beat % 16 + a.bytesPerBeat

instance (a : AxiAddr) (beat l : Nat) : Decidable (a.ActiveLane beat l) :=
  inferInstanceAs (Decidable (_ ∧ _))

/-- The byte address that a lane of a beat stands for. -/
def AxiAddr.laneAddress (a : AxiAddr) (beat l : Nat) : Nat :=
  a.beatAddr beat - a.beatAddr beat % 16 + l

def laneEntry (a : AxiAddr) (data : List AxiWData) (beat l : Nat) : Option (Nat × UInt8) :=
  if a.ActiveLane beat l then some (a.laneAddress beat l, (data.getD beat {}).data.byte l) else none

def Burst.writes : Burst → List (Nat × UInt8)
  | .read _ => []
  | .write a data =>
    (List.range a.beats).flatMap fun beat =>
      (List.range axiDataBytes).filterMap (laneEntry a data beat)

/-! ## Lane addresses -/

theorem InAperture.beatAddr_eq {a : AxiAddr} (h : InAperture a) {beat : Nat}
    (hBeat : beat < a.beats) :
    a.beatAddr beat = a.addr.toNat + beat * a.bytesPerBeat := by
  have hBytes : beat * a.bytesPerBeat ≤ a.burstBytes := by
    rw [AxiAddr.burstBytes, Nat.mul_comm a.bytesPerBeat]
    exact Nat.mul_le_mul_right _ hBeat.le
  have hEnd := h.2
  simp only [extmemBase, extmemSize] at hEnd
  exact Nat.mod_eq_of_lt (by omega)

theorem InAperture.laneAddress_eq {a : AxiAddr} (h : InAperture a) {beat l : Nat}
    (hBeat : beat < a.beats) (hLane : a.ActiveLane beat l) :
    a.laneAddress beat l = a.addr.toNat + (beat * a.bytesPerBeat + (l - a.lane beat)) ∧
      l - a.lane beat < a.bytesPerBeat := by
  obtain ⟨hLow, hHigh⟩ := hLane
  have hAddr := h.beatAddr_eq hBeat
  have hMod : a.beatAddr beat % 16 ≤ a.beatAddr beat := Nat.mod_le _ _
  simp only [AxiAddr.laneAddress, AxiAddr.lane, axiDataBytes]
  omega

theorem InAperture.exists_lane {a : AxiAddr} (h : InAperture a) (hAccepted : a.Accepted)
    {offset : Nat} (hOffset : offset < a.burstBytes) :
    ∃ beat < a.beats, ∃ l < axiDataBytes, a.ActiveLane beat l ∧
      a.laneAddress beat l = a.addr.toNat + offset := by
  have hBeat : offset / a.bytesPerBeat < a.beats := Nat.div_lt_of_lt_mul hOffset
  have hRest : offset % a.bytesPerBeat < a.bytesPerBeat := Nat.mod_lt _ a.bytesPerBeat_pos
  have hFits : a.lane (offset / a.bytesPerBeat) + a.bytesPerBeat ≤ axiDataBytes :=
    of_decide_eq_true (hAccepted.lanes _ hBeat)
  have hActive : a.ActiveLane (offset / a.bytesPerBeat)
      (a.lane (offset / a.bytesPerBeat) + offset % a.bytesPerBeat) :=
    ⟨Nat.le_add_right _ _, Nat.add_lt_add_left hRest _⟩
  refine ⟨_, hBeat, _, by omega, hActive, ?_⟩
  rw [(h.laneAddress_eq hBeat hActive).1, Nat.add_sub_cancel_left, Nat.mul_comm, Nat.div_add_mod]

theorem Burst.mem_writes {a : AxiAddr} {data : List AxiWData} {entry : Nat × UInt8} :
    entry ∈ (Burst.write a data).writes ↔ ∃ beat < a.beats, ∃ l < axiDataBytes,
      a.ActiveLane beat l ∧ entry = (a.laneAddress beat l, (data.getD beat {}).data.byte l) := by
  simp only [Burst.writes, List.mem_flatMap, List.mem_filterMap, List.mem_range, laneEntry]
  constructor
  · rintro ⟨beat, hBeat, l, hl, hEntry⟩
    split at hEntry
    · rename_i hActive
      exact ⟨beat, hBeat, l, hl, hActive, (Option.some.inj hEntry).symm⟩
    · cases hEntry
  · rintro ⟨beat, hBeat, l, hl, hActive, rfl⟩
    exact ⟨beat, hBeat, l, hl, if_pos hActive⟩

theorem InAperture.mem_writes {a : AxiAddr} (h : InAperture a) {data : List AxiWData}
    {entry : Nat × UInt8} (hEntry : entry ∈ (Burst.write a data).writes) :
    ∃ offset < a.burstBytes, entry = (a.addr.toNat + offset, burstByte a data offset) := by
  obtain ⟨beat, hBeat, l, _, hActive, rfl⟩ := Burst.mem_writes.mp hEntry
  obtain ⟨hAddress, hRest⟩ := h.laneAddress_eq hBeat hActive
  have hLane : a.lane beat ≤ l := hActive.1
  refine ⟨beat * a.bytesPerBeat + (l - a.lane beat), ?_, ?_⟩
  · calc
      beat * a.bytesPerBeat + (l - a.lane beat) < beat * a.bytesPerBeat + a.bytesPerBeat :=
        Nat.add_lt_add_left hRest _
      _ = (beat + 1) * a.bytesPerBeat := (Nat.succ_mul _ _).symm
      _ ≤ a.beats * a.bytesPerBeat := Nat.mul_le_mul_right _ hBeat
      _ = a.burstBytes := Nat.mul_comm _ _
  · rw [hAddress, burstByte, Nat.mul_comm beat, Nat.mul_add_div a.bytesPerBeat_pos,
      Nat.div_eq_of_lt hRest, Nat.add_zero, Nat.mul_add_mod, Nat.mod_eq_of_lt hRest,
      Nat.add_sub_cancel' hLane]

theorem InAperture.lastWritten_write {a : AxiAddr} (h : InAperture a) (hAccepted : a.Accepted)
    (data : List AxiWData) (initial : UInt8) (address : Nat) :
    lastWritten (Burst.write a data).writes initial address =
      if a.addr.toNat ≤ address ∧ address < a.addr.toNat + a.burstBytes then
        burstByte a data (address - a.addr.toNat)
      else initial := by
  split
  · rename_i hInside
    apply lastWritten_of_agree
    · intro entry hEntry hPlace
      obtain ⟨offset, _, rfl⟩ := h.mem_writes hEntry
      rw [← hPlace, Nat.add_sub_cancel_left]
    · have hOffset : address - a.addr.toNat < a.burstBytes := by omega
      obtain ⟨beat, hBeat, l, hl, hActive, hAddress⟩ := h.exists_lane hAccepted hOffset
      exact ⟨_, Burst.mem_writes.mpr ⟨beat, hBeat, l, hl, hActive, rfl⟩, by simp only; omega⟩
  · rename_i hOutside
    apply lastWritten_of_absent
    intro entry hEntry hPlace
    obtain ⟨offset, hOffset, rfl⟩ := h.mem_writes hEntry
    exact hOutside (by simp only at hPlace; omega)

/-! ## The local EXTMEM holds what was written last -/

theorem InAperture.not_register {a : AxiAddr} (h : InAperture a) : inRegisterWindow a = false := by
  have hEnd := h.2
  unfold extmemBase extmemSize at hEnd
  exact not_register_of_below (by omega)

theorem InAperture.servedLocally {a : AxiAddr} (h : InAperture a) {s : Handle}
    (hEnabled : s.localExtmemEnabled = true) : servedLocally s a = true := by
  obtain ⟨hStart, hEnd⟩ := h
  rw [Bridge.servedLocally, hEnabled, Bool.true_and, inLocalExtmem, Bool.and_eq_true]
  refine ⟨decide_eq_true hStart, decide_eq_true ?_⟩
  change a.addr.toNat - extmemBase ≤ extmemSize - a.burstBytes
  omega

/-- The local EXTMEM is enabled and holds the last write of the log at each address. -/
structure Mirrors (h : Handle) (log : List (Nat × UInt8)) : Prop where
  enabled : h.localExtmemEnabled = true
  bytes : ∀ offset < extmemSize, h.localExtmem offset = lastWritten log 0 (extmemBase + offset)

theorem Burst.built_iff_read (a : AxiAddr) : (Burst.read a).Built ↔ a.Accepted := by
  rw [Burst.Built]
  by_cases hAccepted : a.Accepted
  · simp [buildGem5DmaReadRequest_of_accepted hAccepted, hAccepted]
  · simp [buildGem5DmaReadRequest_of_not_accepted hAccepted, hAccepted]

theorem Burst.built_iff_write (a : AxiAddr) (data : List AxiWData) :
    (Burst.write a data).Built ↔ a.Accepted ∧ CompleteBeats a data :=
  buildGem5DmaWriteRequest_accepts_iff {}

section Serve

variable {F : Type} (cfg : BridgeConfig F)

theorem Mirrors.readCallback_eq {h : Handle} {log : List (Nat × UInt8)} (hMirrors : Mirrors h log)
    {a : AxiAddr} (ha : InAperture a) (hAccepted : a.Accepted) :
    h.readCallback cfg a = h.serveRead a :=
  h.readCallback_served cfg ha.not_register hAccepted (ha.servedLocally hMirrors.enabled)

theorem Mirrors.serve {h : Handle} {log : List (Nat × UInt8)} (hMirrors : Mirrors h log)
    {b : Burst} (hBuilt : b.Built) (hInside : InAperture b.addr) :
    Mirrors (b.serve cfg h) (log ++ b.writes) := by
  cases b with
  | read a =>
    have ha : InAperture a := hInside
    rw [Burst.serve, hMirrors.readCallback_eq cfg ha ((Burst.built_iff_read a).mp hBuilt),
      Burst.writes, List.append_nil]
    exact ⟨hMirrors.enabled, hMirrors.bytes⟩
  | write a data =>
    have ha : InAperture a := hInside
    have hAccepted := (Burst.built_iff_write a data).mp hBuilt
    rw [Burst.serve, h.writeCallback_served cfg ha.not_register hAccepted
      (ha.servedLocally hMirrors.enabled)]
    refine ⟨hMirrors.enabled, fun offset hOffset => ?_⟩
    have hStart := ha.1
    rw [lastWritten_append, ha.lastWritten_write hAccepted.1, Handle.serveWrite_localExtmem,
      ByteMem.store]
    split
    · rw [if_pos (by omega)]
      exact congrArg (burstByte a data) (by omega)
    · rw [if_neg (by omega)]
      exact hMirrors.bytes offset hOffset

theorem mirrors_bursts (bursts : List Burst) {h : Handle} {log : List (Nat × UInt8)}
    (hMirrors : Mirrors h log) (hBursts : ∀ b ∈ bursts, b.Built ∧ InAperture b.addr) :
    Mirrors (bursts.foldl (Burst.serve cfg) h) (log ++ bursts.flatMap Burst.writes) := by
  induction bursts generalizing h log with
  | nil => simpa using hMirrors
  | cons b bursts ih =>
    have hHead := hBursts b List.mem_cons_self
    rw [List.flatMap_cons, ← List.append_assoc]
    exact ih (hMirrors.serve cfg hHead.1 hHead.2) fun b' hb' =>
      hBursts b' (List.mem_cons_of_mem _ hb')

theorem Mirrors.lane_eq {h : Handle} {log : List (Nat × UInt8)} (hMirrors : Mirrors h log)
    {a : AxiAddr} (ha : InAperture a) {beat : Nat} (hBeat : beat < a.beats) {l : Fin axiDataBytes}
    (hActive : a.ActiveLane beat l) :
    laneCopy (a.lane beat) a.bytesPerBeat
        (fun i => h.localExtmem (a.addr.toNat - extmemBase + (beat * a.bytesPerBeat + i))) l =
      lastWritten log 0 (a.laneAddress beat l) := by
  obtain ⟨hAddress, hRest⟩ := ha.laneAddress_eq hBeat hActive
  have hStart := ha.1
  have hEnd := ha.2
  have hBytes : beat * a.bytesPerBeat + a.bytesPerBeat ≤ a.burstBytes := by
    rw [← Nat.succ_mul, AxiAddr.burstBytes, Nat.mul_comm a.bytesPerBeat]
    exact Nat.mul_le_mul_right _ hBeat
  rw [laneCopy, if_pos ⟨hActive.1, hActive.2⟩, hMirrors.bytes _ (by omega), hAddress]
  exact congrArg (lastWritten log 0) (by omega)

/-- Every beat is strobed on all lanes, their number fits, and only the last is marked. -/
structure FullBeats (a : AxiAddr) (data : List AxiWData) : Prop where
  length : data.length = a.beats
  strobes : ∀ beat ∈ data, beat.strb = 0xffff
  last : ∀ i < a.beats, (data.getD i {}).last = (i + 1 == a.beats)

theorem FullBeats.complete {a : AxiAddr} {data : List AxiWData} (h : FullBeats a data)
    (hAccepted : a.Accepted) : CompleteBeats a data := by
  refine ⟨h.length, h.last, fun i hi j hj => ?_⟩
  have hFits : a.lane i + a.bytesPerBeat ≤ axiDataBytes := of_decide_eq_true (hAccepted.lanes i hi)
  have hStrobe : (data.getD i {}).strb = 0xffff := by
    rw [← h.length] at hi
    rw [List.getD, List.getElem?_eq_getElem hi, Option.getD_some]
    exact h.strobes _ (List.getElem_mem hi)
  have hAll : ∀ l < axiDataBytes, (0xffff : UInt16).toNat.testBit l = true := by decide
  rw [AxiWData.strobe, hStrobe]
  exact hAll _ (by omega)

theorem extmem_reads_last_written (h : Handle) (hIdle : h.dmaPending = false) :
    (∀ bursts : List Burst, (∀ b ∈ bursts, b.Built ∧ InAperture b.addr) →
      ∀ a : AxiAddr, (Burst.read a).Built → InAperture a →
        let s := bursts.foldl (Burst.serve cfg) (h.extmemEnable true).1
        ∃ beats, (s.readCallback cfg a).masterRead.responses = s.masterRead.responses ++ beats ∧
          beats.length = a.beats ∧
          ∀ (beat : Nat) (hBeat : beat < beats.length) (l : Fin axiDataBytes),
            a.ActiveLane beat l → (beats.get ⟨beat, hBeat⟩).data l =
              lastWritten (bursts.flatMap Burst.writes) 0 (a.laneAddress beat l)) ∧
    ∀ (a : AxiAddr) (data : List AxiWData), FullBeats a data →
      ((Burst.write a data).Built ↔ (Burst.read a).Built) := by
  constructor
  · intro bursts hBursts a hBuilt ha s
    have hStart : Mirrors (h.extmemEnable true).1 [] := by
      rw [Handle.extmemEnable, hIdle]
      exact ⟨rfl, fun _ _ => rfl⟩
    have hMirrors : Mirrors s (bursts.flatMap Burst.writes) :=
      mirrors_bursts cfg bursts hStart hBursts
    have hServed := hMirrors.readCallback_eq cfg ha ((Burst.built_iff_read a).mp hBuilt)
    refine ⟨_, congrArg (fun t => t.masterRead.responses) hServed, by simp [dataBeats], ?_⟩
    intro beat hBeat l hActive
    have hCount : beat < a.beats := by simpa [dataBeats] using hBeat
    simp only [dataBeats, List.get_eq_getElem, List.getElem_map, List.getElem_range]
    exact hMirrors.lane_eq ha hCount hActive
  · intro a data hFull
    rw [Burst.built_iff_read, Burst.built_iff_write]
    exact ⟨fun hBoth => hBoth.1, fun hAccepted => ⟨hAccepted, hFull.complete hAccepted⟩⟩

end Serve

/-- A word of the bytes 4, 5, 6, 7 written at once and read back byte by byte. -/
theorem extmem_reads_back_word :
    let bursts := [Burst.write { addr := 0x20000004, size := 2, burst := 1 }
      [{ data := fun l => UInt8.ofNat l, strb := 0xffff, last := true }]]
    let a : AxiAddr := { addr := 0x20000004, size := 0, len := 3, burst := 1 }
    let s := bursts.foldl (Burst.serve plainConfig) (({} : Handle).extmemEnable true).1
    lastWritten (bursts.flatMap Burst.writes) 0 (a.laneAddress 1 5) = 5 ∧
      ∃ beats, (s.readCallback plainConfig a).masterRead.responses =
          s.masterRead.responses ++ beats ∧ beats.length = 4 ∧
        ∀ (beat : Nat) (hBeat : beat < beats.length) (l : Fin axiDataBytes),
          a.ActiveLane beat l → (beats.get ⟨beat, hBeat⟩).data l =
            lastWritten (bursts.flatMap Burst.writes) 0 (a.laneAddress beat l) :=
  ⟨by decide +kernel, (extmem_reads_last_written plainConfig {} rfl).1 _ (by decide +kernel) _
    (by decide +kernel) (by decide +kernel)⟩

end OpenNpux.Bridge
