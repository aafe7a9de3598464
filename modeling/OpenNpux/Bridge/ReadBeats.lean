import OpenNpux.Bridge.Handle

/-!
# The number of beats that answer a read

A burst of `ARLEN + 1` beats is answered beat by beat only on the data paths: from the
local EXTMEM, or by a completion without an error. Every other path queues a single
last beat, whatever the length of the burst.
-/

namespace OpenNpux.Bridge

open Lib Hybrid

theorem exactBurst_single {a : AxiAddr} {beat : AxiRData} (hId : beat.id = a.id)
    (hLast : beat.last = true) : ExactBurst a.id (a.len.toNat + 1) [beat] ↔ a.len = 0 := by
  constructor
  · intro h
    have hLength : a.len.toNat = 0 := by simpa using h.length.symm
    exact UInt8.toNat_inj.mp hLength
  · intro hLen
    rw [hLen]
    exact .single hId hLast

namespace Handle

variable {F : Type} (cfg : BridgeConfig F)

/-- The handle after a read request has been answered: by the callback, or by a completion
of the request that the callback left in the slot. -/
def answerRead (h : Handle) (a : AxiAddr) (data : ByteMem) (error : Bool) : Handle :=
  let captured := h.readCallback cfg a
  if captured.dmaPending then
    (captured.dmaComplete (some (data, captured.pendingDma.size)) error).1
  else captured

/-- The beats queued between two states answer the request exactly. -/
def AnsweredExactly (h answered : Handle) (a : AxiAddr) : Prop :=
  ∃ beats, answered.masterRead.responses = h.masterRead.responses ++ beats ∧
    ExactBurst a.id (a.len.toNat + 1) beats

theorem answeredExactly_queueRead {h answered : Handle} {a : AxiAddr} (beats : List AxiRData)
    (hQueue : answered.masterRead.responses = h.masterRead.responses ++ beats) :
    AnsweredExactly h answered a ↔ ExactBurst a.id (a.len.toNat + 1) beats := by
  constructor
  · rintro ⟨beats', hQueue', hExact⟩
    obtain rfl : beats = beats' := List.append_cancel_left (hQueue.symm.trans hQueue')
    exact hExact
  · exact fun hExact => ⟨beats, hQueue, hExact⟩

/-- The burst has one beat, or it takes a data path that succeeds. -/
def BeatsCounted (h : Handle) (a : AxiAddr) (error : Bool) : Prop :=
  a.len = 0 ∨ (Gem5CustomMac.contains a.addr.toNat 4 = false ∧ a.Accepted ∧
    (servedLocally h a = true ∨ error = false))

theorem isHybridWordAccess_len {a : AxiAddr} (h : isHybridWordAccess a = true) : a.len = 0 := by
  simp only [isHybridWordAccess, isCustomWordAccess, Bool.and_eq_true, beq_iff_eq] at h
  exact h.1.1.1.1.1

theorem beatsCounted_of_single {h : Handle} {a : AxiAddr} {error : Bool}
    (hWhy : inRegisterWindow a = true ∨ ¬ a.Accepted) : BeatsCounted h a error ↔ a.len = 0 := by
  refine ⟨?_, .inl⟩
  rintro (hLen | ⟨hMac, hAccepted, _⟩)
  · exact hLen
  · rcases hWhy with hWindow | hRejected
    · rw [inRegisterWindow, hMac, Bool.or_false] at hWindow
      exact isHybridWordAccess_len hWindow
    · exact absurd hAccepted hRejected

theorem queueRead_single_exact {h : Handle} {a : AxiAddr} {beat : AxiRData} (hId : beat.id = a.id)
    (hLast : beat.last = true) : AnsweredExactly h (h.queueRead [beat]) a ↔ a.len = 0 := by
  rw [answeredExactly_queueRead [beat] rfl, exactBurst_single hId hLast]

theorem deferRead_complete (h : Handle) (a : AxiAddr) (data : ByteMem) (error : Bool) :
    AnsweredExactly h ((h.deferRead a).dmaComplete (some (data, a.burstBytes)) error).1 a ↔
      a.len = 0 ∨ error = false := by
  cases error with
  | true =>
    rw [answeredExactly_queueRead [{ id := a.id, resp := 2, last := true }] rfl,
      exactBurst_single rfl rfl]
    simp
  | false =>
    have hQueue : ((h.deferRead a).dmaComplete
        (some (data, a.burstBytes)) false).1.masterRead.responses
        = h.masterRead.responses ++ dataBeats (readRequest a) a.bytesPerBeat a.beats data := by
      simp [dmaComplete, deferRead, readRequest, clearSlot, queueRead]
    rw [answeredExactly_queueRead _ hQueue]
    exact iff_of_true (dataBeats_exact (readRequest a) _ a.beats _) (.inr rfl)

instance (h : Handle) (a : AxiAddr) (error : Bool) : Decidable (BeatsCounted h a error) :=
  inferInstanceAs (Decidable (_ ∨ (_ ∧ _ ∧ _)))

theorem answerRead_exact_iff (h : Handle) (a : AxiAddr) (data : ByteMem) (error : Bool)
    (hIdle : h.dmaPending = false) :
    AnsweredExactly h (h.answerRead cfg a data error) a ↔ BeatsCounted h a error := by
  have hTaken := h.readCallback_taken cfg a
  simp only [answerRead]
  generalize h.readCallback cfg a = captured at hTaken
  cases hTaken with
  | register beat hId hLast hWindow =>
    have hPending : (h.queueRead [beat]).dmaPending = false := hIdle
    rw [hPending, if_neg Bool.false_ne_true, queueRead_single_exact hId hLast,
      beatsCounted_of_single (.inl hWindow)]
  | rejected _ hRejected =>
    have hPending : (h.queueRead [{ id := a.id, resp := axiSlvErr, last := true }]).dmaPending =
        false := hIdle
    rw [hPending, if_neg Bool.false_ne_true, queueRead_single_exact rfl rfl,
      beatsCounted_of_single (.inr hRejected)]
  | served hWindow hAccepted hLocal =>
    have hPending : (h.serveRead a).dmaPending = false := hIdle
    simp only [hPending, Bool.false_eq_true, if_false]
    rw [answeredExactly_queueRead _ rfl]
    rw [inRegisterWindow, Bool.or_eq_false_iff] at hWindow
    exact iff_of_true (dataBeats_exact (readRequest a) _ a.beats _)
      (.inr ⟨hWindow.2, hAccepted, .inl hLocal⟩)
  | deferred hWindow hAccepted hLocal =>
    rw [inRegisterWindow, Bool.or_eq_false_iff] at hWindow
    have hPending : (h.deferRead a).dmaPending = true := rfl
    have hSize : (h.deferRead a).pendingDma.size = a.burstBytes := rfl
    simp only [hPending, if_true, hSize]
    rw [deferRead_complete]
    simp [BeatsCounted, hWindow.2, hAccepted, hLocal]

theorem answerRead_exact_two_beats :
    let h : Handle := { localExtmemEnabled := true }
    let a : AxiAddr := { addr := 0x20000010, len := 1, size := 4, burst := 1, id := 3 }
    AnsweredExactly h (h.answerRead plainConfig a (fun _ => 0) false) a :=
  (answerRead_exact_iff plainConfig _ _ _ _ rfl).mpr (by decide)

/-- A rejected burst of two beats is answered by one. -/
theorem answerRead_rejected_one_beat :
    ¬ ∀ (h : Handle) (a : AxiAddr) (data : ByteMem) (error : Bool), h.dmaPending = false →
      AnsweredExactly h (h.answerRead plainConfig a data error) a := by
  intro hExact
  obtain ⟨beats, hQueue, hBurst⟩ :=
    hExact {} { addr := 0x20000000, len := 1, size := 2, burst := 0 } (fun _ => 0) false rfl
  have hTwo : beats.length = 2 := hBurst.length
  rw [← List.nil_append beats, ← hQueue] at hTwo
  exact absurd hTwo (by decide)

end Handle
end OpenNpux.Bridge
