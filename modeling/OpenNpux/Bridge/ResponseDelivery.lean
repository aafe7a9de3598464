import OpenNpux.Bridge.MasterDrivers
import OpenNpux.Lib.Responder

/-!
# Delivery of the queued responses

Both master drivers handle their responses alike: a queue, the payload wires, and the
handshake that a falling edge predicts for the next rising edge. `RREADY` and `BREADY` keep
the value of the driver's sample until that rising edge and may change right after it. A
request is released at the falling edge that follows the transfer which ends it.
-/

namespace OpenNpux.Bridge

open Lib

/-! ## The read driver -/

namespace ReadDriver

variable (d : ReadDriver) (pins : ReadPins)

def responder : Responder AxiRData :=
  ⟨d.responses, d.responseHandshakePending, d.dataValid, d.data⟩

/-- The driver once a beat that was accepted has been popped. -/
def retired : ReadDriver := if d.responseHandshakePending then d.retireResponse else d

theorem retired_responses : d.retired.responses = d.responder.retired ∧
    d.retired.data = d.data := by
  unfold retired Responder.retired
  cases hHandshake : d.responseHandshakePending with
  | false => simp [responder, hHandshake]
  | true => cases hQueue : d.responses <;> simp [responder, retireResponse, hHandshake, hQueue]

/-- The response side of an edge, and the pending request it leaves. -/
structure Edge (d d' : ReadDriver) (ready : Bool) : Prop where
  responder : d'.responder = d.responder.fall ready
  addrReady : d'.addrReady = !d'.requestPending
  /-- Only a transferred address makes a request pending. -/
  requestPending : d.addrReady = false → d'.requestPending = d.retired.requestPending

theorem onFallingEdge_edge : Edge d (d.onFallingEdge pins).1 pins.dataReady := by
  obtain ⟨hQueue, hData⟩ := d.retired_responses
  have hFall : d.responder.fall pins.dataReady =
      ⟨d.retired.responses, !d.retired.responses.isEmpty && pins.dataReady,
        !d.retired.responses.isEmpty, d.retired.responses.headD d.retired.data⟩ := by
    rw [hQueue, hData]
    rfl
  unfold onFallingEdge
  rw [← retired]
  constructor
  · rw [hFall]
    cases pins.addrValid with
    | false => rfl
    | true =>
      simp only [if_true, Bool.true_and]
      split <;> rfl
  · cases pins.addrValid with
    | false => rfl
    | true =>
      simp only [if_true, Bool.true_and]
      split <;> rfl
  · intro hLow
    rw [hLow]
    cases pins.addrValid <;> rfl

end ReadDriver

def readResponses : ResponseSource ReadDriver AxiRData ReadPins where
  view := ReadDriver.responder
  push := ReadDriver.queueResponse
  fall d pins := (d.onFallingEdge pins).1
  ready := ReadPins.dataReady
  view_push _ _ := rfl
  view_fall d pins := (d.onFallingEdge_edge pins).responder

theorem read_released_iff {s : Delivery ReadDriver AxiRData} (h : readResponses.Invariant s)
    (hReady : s.driver.addrReady = !s.driver.requestPending)
    (hPending : s.driver.requestPending = true) (pins : ReadPins) :
    (s.driver.onFallingEdge pins).1.requestPending = false ↔
      ∃ beat, readResponses.taken s = some beat ∧ beat.last = true := by
  have hLow : s.driver.addrReady = false := by rw [hReady, hPending, Bool.not_true]
  have hHandshake : s.driver.responseHandshakePending = (s.driver.dataValid && s.ready) :=
    h.faithful.handshake
  have hTaken : readResponses.taken s =
      if s.driver.responseHandshakePending then some s.driver.data else none := by
    rw [hHandshake]
    rfl
  rw [(s.driver.onFallingEdge_edge pins).requestPending hLow, hTaken, ReadDriver.retired]
  cases hTransfer : s.driver.responseHandshakePending with
  | false => simp [hPending]
  | true =>
    rw [hTransfer, eq_comm, Bool.and_eq_true] at hHandshake
    obtain ⟨rest, hQueue⟩ := List.head?_eq_some_iff.1 (h.faithful.oldest hHandshake.1)
    have hResponses : s.driver.responses = s.driver.data :: rest := hQueue
    simp [ReadDriver.retireResponse, hResponses, hPending]

/-! ## The write driver -/

namespace WriteDriver

variable (d : WriteDriver) (pins : WritePins)

def responder : Responder AxiWResp :=
  ⟨d.responses, d.responseHandshakePending, d.respValid, d.resp⟩

/-- The driver once a response that was accepted has been popped. -/
def retired : WriteDriver := if d.responseHandshakePending then d.retireResponse else d

theorem retired_responses : d.retired.responses = d.responder.retired ∧
    d.retired.resp = d.resp := by
  unfold retired Responder.retired
  cases hHandshake : d.responseHandshakePending <;> simp [responder, retireResponse, hHandshake]

structure Edge (d d' : WriteDriver) (ready : Bool) : Prop where
  responder : d'.responder = d.responder.fall ready
  stalled : d'.requestPending = true → d'.addrReady = false ∧ d'.dataReady = false
  /-- Only transfers on the address and data channels make a request pending. -/
  requestPending : d.addrReady = false → d.dataReady = false → d.requestPending = true →
    d'.requestPending = d.retired.requestPending

theorem captureAddr_responder (handshake : Bool) (addr : AxiAddr) :
    (d.captureAddr handshake addr).responder = d.responder := by
  unfold captureAddr
  split <;> rfl

theorem captureData_responder (handshake : Bool) (beat : AxiWData) :
    (d.captureData handshake beat).responder = d.responder := by
  unfold captureData
  split <;> rfl

theorem submit_responder : d.submit.1.responder = d.responder := by
  unfold submit
  split <;> rfl

theorem driveReady_stalled (hPending : d.driveReady.requestPending = true) :
    d.driveReady.addrReady = false ∧ d.driveReady.dataReady = false := by
  have hSame : d.requestPending = true := hPending
  simp [driveReady, hSame]

theorem submit_pending (hRetired : d.requestPending = true ∨ d.addrCaptured = false) :
    d.submit.1.requestPending = d.requestPending := by
  unfold submit
  split
  · rename_i hSubmits
    rcases hRetired with hPending | hNone
    · exact hPending.symm
    · simp [hNone] at hSubmits
  · rfl

theorem onFallingEdge_edge : Edge d (d.onFallingEdge pins).1 pins.respReady := by
  obtain ⟨hQueue, hData⟩ := d.retired_responses
  unfold onFallingEdge
  rw [← retired]
  dsimp only
  constructor
  · have hDriven : ∀ e : WriteDriver, e.driveReady.responder = e.responder := fun _ => rfl
    rw [hDriven, submit_responder, captureData_responder, captureAddr_responder]
    unfold Responder.fall
    rw [← hQueue]
    have hPayload : d.responder.payload = d.retired.resp := hData.symm
    rw [hPayload]
    rfl
  · exact driveReady_stalled _
  · intro hAddr hDataLow hPending
    rw [hAddr, hDataLow, Bool.and_false, Bool.and_false]
    refine (submit_pending _ ?_).trans rfl
    unfold retired
    cases d.responseHandshakePending with
    | false => exact .inl hPending
    | true => exact .inr rfl

end WriteDriver

def writeResponses : ResponseSource WriteDriver AxiWResp WritePins where
  view := WriteDriver.responder
  push := WriteDriver.queueResponse
  fall d pins := (d.onFallingEdge pins).1
  ready := WritePins.respReady
  view_push _ _ := rfl
  view_fall d pins := (d.onFallingEdge_edge pins).responder

theorem write_released_iff {s : Delivery WriteDriver AxiWResp} (h : writeResponses.Invariant s)
    (hStalled : s.driver.requestPending = true →
      s.driver.addrReady = false ∧ s.driver.dataReady = false)
    (hPending : s.driver.requestPending = true) (pins : WritePins) :
    (s.driver.onFallingEdge pins).1.requestPending = false ↔
      ∃ response, writeResponses.taken s = some response := by
  obtain ⟨hAddr, hData⟩ := hStalled hPending
  have hHandshake : s.driver.responseHandshakePending = (s.driver.respValid && s.ready) :=
    h.faithful.handshake
  have hTaken : writeResponses.taken s =
      if s.driver.responseHandshakePending then some s.driver.resp else none := by
    rw [hHandshake]
    rfl
  rw [(s.driver.onFallingEdge_edge pins).requestPending hAddr hData hPending, hTaken,
    WriteDriver.retired]
  cases s.driver.responseHandshakePending with
  | false => simp [hPending]
  | true => simp [WriteDriver.retireResponse]

/-! ## Every run -/

/-- Responses are accepted in order, once and unchanged, and release their requests. -/
theorem responses_delivered (reads : List (DeliveryStep AxiRData ReadPins))
    (writes : List (DeliveryStep AxiWResp WritePins)) :
    let r := reads.foldl readResponses.step { driver := {} }
    let w := writes.foldl writeResponses.step { driver := {} }
    (readResponses.Delivers r ∧ ∀ pins, r.driver.requestPending = true →
      ((r.driver.onFallingEdge pins).1.requestPending = false ↔
        ∃ beat, readResponses.taken r = some beat ∧ beat.last = true)) ∧
    writeResponses.Delivers w ∧ ∀ pins, w.driver.requestPending = true →
      ((w.driver.onFallingEdge pins).1.requestPending = false ↔
        ∃ response, writeResponses.taken w = some response) := by
  intro r w
  have hRead : readResponses.Invariant r := (readResponses.invariant_init rfl rfl rfl).run reads
  have hWrite : writeResponses.Invariant w := (writeResponses.invariant_init rfl rfl rfl).run writes
  have hReady : r.driver.addrReady = !r.driver.requestPending :=
    readResponses.run_driver (Q := fun d => d.addrReady = !d.requestPending) (fun _ _ h => h)
      (fun d pins _ => (d.onFallingEdge_edge pins).addrReady) rfl reads
  have hStalled : w.driver.requestPending = true →
      w.driver.addrReady = false ∧ w.driver.dataReady = false :=
    writeResponses.run_driver
      (Q := fun d => d.requestPending = true → d.addrReady = false ∧ d.dataReady = false)
      (fun _ _ h => h) (fun d pins _ => (d.onFallingEdge_edge pins).stalled)
      (fun hPending => absurd hPending Bool.false_ne_true) writes
  refine ⟨⟨hRead.delivers, ?_⟩, hWrite.delivers, ?_⟩
  · intro pins hPending
    exact read_released_iff hRead hReady hPending pins
  · intro pins hPending
    exact write_released_iff hWrite hStalled hPending pins

end OpenNpux.Bridge
