import OpenNpux.Bridge.MasterDrivers
import OpenNpux.Lib.Channel
import OpenNpux.Lib.Run

/-!
# Collection of write bursts by the write driver

The AW and W channels move independently. The driver takes an address and a last
beat as soon as it sees them and keeps the core waiting on both until the response
is accepted, so the next address and the next beat are new ones. A presented item is
captured at the falling edge where it first appears.
-/

namespace OpenNpux.Bridge

open Lib

def collectBeat (bursts : List (List AxiWData) × List AxiWData) (beat : AxiWData) :
    List (List AxiWData) × List AxiWData :=
  if beat.last then (bursts.1 ++ [bursts.2 ++ [beat]], []) else (bursts.1, bursts.2 ++ [beat])

/-- The complete bursts of a stream of W beats, and the beats after the last `WLAST`. -/
def splitBursts (beats : List AxiWData) : List (List AxiWData) × List AxiWData :=
  beats.foldl collectBeat ([], [])

theorem splitBursts_append (beats : List AxiWData) (next : Option AxiWData) :
    splitBursts (beats ++ next.toList) =
      next.elim (splitBursts beats) (collectBeat (splitBursts beats)) := by
  cases next with
  | none => simp
  | some beat => simp [splitBursts]

/-- The driver, its two request channels, the requests handed to the callback and the
responses the core has accepted. -/
structure WriteBus where
  driver : WriteDriver := {}
  aw : Channel AxiAddr := {}
  w : Channel AxiWData := {}
  bReady : Bool := false
  submitted : List (AxiAddr × List AxiWData) := []
  accepted : Nat := 0
  unanswered : Bool := false
  started : Bool := false

structure WriteClock where
  queued : Option AxiWResp := none
  aw : Option AxiAddr := none
  w : Option AxiWData := none
  respReady : Bool := false

namespace WriteBus

def edge (s : WriteBus) (c : WriteClock) : WriteDriver × Option (AxiAddr × List AxiWData) :=
  (c.queued.elim s.driver s.driver.queueResponse).onFallingEdge
    { addrValid := c.aw.isSome, addr := c.aw.getD {}
      dataValid := c.w.isSome, data := c.w.getD {}, respReady := c.respReady }

def clock (s : WriteBus) (c : WriteClock) : WriteBus where
  driver := (s.edge c).1
  aw := s.aw.rise s.driver.addrReady c.aw
  w := s.w.rise s.driver.dataReady c.w
  bReady := c.respReady
  submitted := s.submitted ++ (s.edge c).2.toList
  accepted := if s.driver.respValid && s.bReady then s.accepted + 1 else s.accepted
  unanswered := (s.edge c).2.isSome || (s.unanswered && !c.queued.isSome)
  started := true

/-- The core holds what was not taken and offers nothing before the first falling edge,
no burst runs past 256 beats, and a submitted request gets a single response. -/
structure Legal (s : WriteBus) (c : WriteClock) : Prop where
  held : s.aw.Holds s.driver.addrReady c.aw
  heldData : s.w.Holds s.driver.dataReady c.w
  quiet : s.started = false → c.aw = none ∧ c.w = none
  bounded : (splitBursts (s.w.rise s.driver.dataReady c.w).presented).2.length < 256
  answers : c.queued.isSome = true → s.unanswered = true

instance (s : WriteBus) (c : WriteClock) : Decidable (s.Legal c) :=
  decidable_of_iff (s.aw.Holds s.driver.addrReady c.aw ∧ s.w.Holds s.driver.dataReady c.w ∧
      (s.started = false → c.aw = none ∧ c.w = none) ∧
      (splitBursts (s.w.rise s.driver.dataReady c.w).presented).2.length < 256 ∧
      (c.queued.isSome = true → s.unanswered = true))
    ⟨fun ⟨h₁, h₂, h₃, h₄, h₅⟩ => ⟨h₁, h₂, h₃, h₄, h₅⟩, fun ⟨h₁, h₂, h₃, h₄, h₅⟩ =>
      ⟨h₁, h₂, h₃, h₄, h₅⟩⟩

/-- The requests handed over are the addresses in order, each with the burst of its own rank;
an address whose transfer the core has seen is among them. -/
def CollectedInOrder (s : WriteBus) : Prop :=
  s.submitted = s.aw.presented.zip (splitBursts s.w.presented).1 ∧
    s.aw.transferred <+: s.submitted.map Prod.fst

/-- Neither request channel is ready while a submitted request lacks its accepted response. -/
def Backpressured (s : WriteBus) : Prop :=
  s.accepted < s.submitted.length → s.driver.addrReady = false ∧ s.driver.dataReady = false

/-- The address side: what the core has presented is what was submitted, and the captured
address if it still waits for its data. -/
structure AddrSide (d : WriteDriver) (aw : Channel AxiAddr) (addrs : List AxiAddr) : Prop where
  ready : d.addrReady = !d.addrCaptured
  held : d.addrCaptured = true → aw.offer = some d.requestAddr
  presented : aw.presented = addrs ++ if d.addrCaptured then [d.requestAddr] else []

/-- The data side: the complete bursts are those submitted, and the collected burst if it is
complete; an open burst is what the driver has collected. -/
structure DataSide (d : WriteDriver) (w : Channel AxiWData) (bursts : List (List AxiWData)) :
    Prop where
  ready : d.dataReady = !d.dataComplete
  held : d.dataComplete = true → w.offer.isSome = true
  presented : splitBursts w.presented =
    if d.dataComplete then (bursts ++ [d.requestData], []) else (bursts, d.requestData)

theorem AddrSide.capture {d : WriteDriver} {aw : Channel AxiAddr} {addrs : List AxiAddr}
    {next : Option AxiAddr} (h : AddrSide d aw addrs) (hHolds : aw.Holds d.addrReady next) :
    let d' := d.captureAddr (next.isSome && d.addrReady) (next.getD {})
    (d'.addrCaptured = true → next = some d'.requestAddr) ∧
      (aw.rise d.addrReady next).presented =
        addrs ++ if d'.addrCaptured then [d'.requestAddr] else [] := by
  cases hCaptured : d.addrCaptured with
  | true =>
    have hReady : d.addrReady = false := by rw [h.ready, hCaptured]; rfl
    rw [hReady] at hHolds ⊢
    have hOffer := h.held hCaptured
    refine ⟨fun _ => ?_, ?_⟩
    · simpa [WriteDriver.captureAddr] using hHolds.next_eq hOffer
    · rw [hHolds.rise_eq hOffer, h.presented]
      simp [WriteDriver.captureAddr]
  | false =>
    have hReady : d.addrReady = true := by rw [h.ready, hCaptured]; rfl
    have hPresented : aw.presented = addrs := by simpa [hCaptured] using h.presented
    rw [hReady]
    cases next <;> simp [WriteDriver.captureAddr, hCaptured, hPresented]

theorem DataSide.capture {d : WriteDriver} {w : Channel AxiWData} {bursts : List (List AxiWData)}
    {next : Option AxiWData} (h : DataSide d w bursts) (hHolds : w.Holds d.dataReady next) :
    let d' := d.captureData (next.isSome && d.dataReady) (next.getD {})
    (d'.dataComplete = true → next.isSome = true) ∧
      splitBursts (w.rise d.dataReady next).presented =
        if d'.dataComplete then (bursts ++ [d'.requestData], []) else (bursts, d'.requestData) := by
  cases hComplete : d.dataComplete with
  | true =>
    have hReady : d.dataReady = false := by rw [h.ready, hComplete]; rfl
    rw [hReady] at hHolds ⊢
    obtain ⟨beat, hOffer⟩ := Option.isSome_iff_exists.mp (h.held hComplete)
    refine ⟨fun _ => by simp [hHolds.next_eq hOffer], ?_⟩
    rw [hHolds.rise_eq hOffer, h.presented]
    simp [WriteDriver.captureData]
  | false =>
    have hReady : d.dataReady = true := by rw [h.ready, hComplete]; rfl
    have hPresented : splitBursts w.presented = (bursts, d.requestData) := by
      simpa [hComplete] using h.presented
    rw [hReady, Channel.presented_rise_ready, splitBursts_append, hPresented]
    cases next with
    | none => simp [WriteDriver.captureData, hComplete]
    | some beat =>
      cases hLast : beat.last <;> simp [WriteDriver.captureData, collectBeat, hComplete, hLast]

theorem captureAddr_frame (d : WriteDriver) (handshake : Bool) (addr : AxiAddr) :
    ∃ captured request, d.captureAddr handshake addr =
      { d with addrCaptured := captured, requestAddr := request } := by
  unfold WriteDriver.captureAddr
  split
  · exact ⟨true, addr, rfl⟩
  · exact ⟨d.addrCaptured, d.requestAddr, rfl⟩

theorem captureData_frame (d : WriteDriver) (handshake : Bool) (beat : AxiWData) :
    ∃ complete data, d.captureData handshake beat =
      { d with dataComplete := complete, requestData := data } := by
  unfold WriteDriver.captureData
  split
  · exact ⟨beat.last, d.requestData ++ [beat], rfl⟩
  · exact ⟨d.dataComplete, d.requestData, rfl⟩

/-- Where the driver stands between two clocks. -/
inductive Phase (s : WriteBus) : Prop
  | collecting (hStarted : s.started = true) (hPending : s.driver.requestPending = false)
      (hSubmitted : s.driver.requestSubmitted = false)
      (hOpen : (s.driver.addrCaptured && s.driver.dataComplete) = false)
      (hAddr : AddrSide s.driver s.aw (s.submitted.map Prod.fst))
      (hData : DataSide s.driver s.w (s.submitted.map Prod.snd))
      (hQueue : s.driver.responses = []) (hLatch : s.driver.responseHandshakePending = false)
      (hValid : s.driver.respValid = false) (hAnswered : s.unanswered = false)
      (hAccepted : s.accepted = s.submitted.length)
  | waiting (hStarted : s.started = true) (hPending : s.driver.requestPending = true)
      (hSubmitted : s.driver.requestSubmitted = true) (hCaptured : s.driver.addrCaptured = true)
      (hComplete : s.driver.dataComplete = true) (hAddrReady : s.driver.addrReady = false)
      (hDataReady : s.driver.dataReady = false) (hOffer : s.aw.offer.isSome = true)
      (hBeat : s.w.offer.isSome = true) (hAddr : s.aw.presented = s.submitted.map Prod.fst)
      (hData : splitBursts s.w.presented = (s.submitted.map Prod.snd, []))
      (hQueue : s.driver.responses.length = if s.unanswered then 0 else 1)
      (hLatch : s.driver.responseHandshakePending = (s.driver.respValid && s.bReady))
      (hValid : s.driver.respValid = true → s.driver.responses ≠ [])
      (hAccepted : s.accepted + 1 = s.submitted.length)

theorem Phase.backpressured {s : WriteBus} (h : s.Phase) : s.Backpressured := by
  intro hLate
  cases h with
  | collecting _ _ _ _ _ _ _ _ _ _ hAccepted => exact absurd hLate (by simp [hAccepted])
  | waiting _ _ _ _ _ hAddrReady hDataReady => exact ⟨hAddrReady, hDataReady⟩

theorem zip_map_fst_map_snd {α β : Type} (pairs : List (α × β)) (xs : List α) (ys : List β)
    (h : xs = [] ∨ ys = []) :
    (pairs.map Prod.fst ++ xs).zip (pairs.map Prod.snd ++ ys) = pairs := by
  rw [List.zip_append (by simp)]
  rcases h with rfl | rfl <;> simp [List.zip_map', List.map_id']

theorem Phase.collected_in_order {s : WriteBus} (h : s.Phase) : s.CollectedInOrder := by
  cases h with
  | collecting _ _ _ hOpen hAddr hData =>
    have hPresented := hAddr.presented
    cases hCaptured : s.driver.addrCaptured with
    | false =>
      simp only [hCaptured, Bool.false_eq_true, if_false, List.append_nil] at hPresented
      constructor
      · rw [hPresented, hData.presented]
        cases s.driver.dataComplete
        · simpa using (zip_map_fst_map_snd s.submitted [] [] (.inl rfl)).symm
        · simpa using (zip_map_fst_map_snd s.submitted [] [s.driver.requestData] (.inl rfl)).symm
      · rw [← hPresented]
        exact List.prefix_append _ _
    | true =>
      have hIncomplete : s.driver.dataComplete = false := by simpa [hCaptured] using hOpen
      simp only [hCaptured, if_true] at hPresented
      constructor
      · rw [hPresented, hData.presented, hIncomplete]
        simpa using (zip_map_fst_map_snd s.submitted [s.driver.requestAddr] [] (.inr rfl)).symm
      · rw [Channel.presented, hAddr.held hCaptured] at hPresented
        rw [List.append_cancel_right hPresented]
  | waiting _ _ _ _ _ _ _ _ _ hAddr hData =>
    constructor
    · rw [hAddr, hData]
      simpa using (zip_map_fst_map_snd s.submitted [] [] (.inl rfl)).symm
    · rw [← hAddr]
      exact List.prefix_append _ _

/-- The falling edge of a driver that collects: no response is in flight, so only the two
captures and the submission act. -/
theorem edge_collecting {s : WriteBus} {c : WriteClock} (hQueued : c.queued = none)
    (hQueue : s.driver.responses = []) (hLatch : s.driver.responseHandshakePending = false)
    (hValid : s.driver.respValid = false) :
    s.edge c =
      let d := (s.driver.captureAddr (c.aw.isSome && s.driver.addrReady) (c.aw.getD {})).captureData
        (c.w.isSome && s.driver.dataReady) (c.w.getD {})
      (d.submit.1.driveReady, d.submit.2) := by
  obtain ⟨driver, aw, w, bReady, submitted, accepted, unanswered, started⟩ := s
  cases driver
  dsimp only at hQueue hLatch hValid
  subst hQueue hLatch hValid
  simp [edge, WriteDriver.onFallingEdge, WriteDriver.driveResponse, hQueued]

theorem collecting_step {s : WriteBus} {c : WriteClock} (hPending : s.driver.requestPending = false)
    (hSubmitted : s.driver.requestSubmitted = false)
    (hAddr : AddrSide s.driver s.aw (s.submitted.map Prod.fst))
    (hData : DataSide s.driver s.w (s.submitted.map Prod.snd))
    (hQueue : s.driver.responses = []) (hLatch : s.driver.responseHandshakePending = false)
    (hValid : s.driver.respValid = false) (hAnswered : s.unanswered = false)
    (hAccepted : s.accepted = s.submitted.length) (hLegal : s.Legal c) : (s.clock c).Phase := by
  have hQueued : c.queued = none := by
    have := hLegal.answers
    rw [hAnswered] at this
    simpa using this
  have hEdge := edge_collecting hQueued hQueue hLatch hValid
  obtain ⟨hHeld, hPresented⟩ := hAddr.capture hLegal.held
  obtain ⟨captured, request, hCapture⟩ :=
    captureAddr_frame s.driver (c.aw.isSome && s.driver.addrReady) (c.aw.getD {})
  simp only [hCapture] at hEdge hHeld hPresented
  have hData' : DataSide { s.driver with addrCaptured := captured, requestAddr := request } s.w
      (s.submitted.map Prod.snd) := ⟨hData.ready, hData.held, hData.presented⟩
  obtain ⟨hHeldData, hBursts⟩ := hData'.capture hLegal.heldData
  have hBounded := hLegal.bounded
  obtain ⟨complete, data, hCollect⟩ := captureData_frame
    { s.driver with addrCaptured := captured, requestAddr := request }
    (c.w.isSome && s.driver.dataReady) (c.w.getD {})
  simp only [hCollect] at hEdge hHeldData hBursts
  by_cases hBoth : captured = true ∧ complete = true
  · obtain ⟨rfl, rfl⟩ := hBoth
    have hSubmit : s.edge c = ({ s.driver with
        addrCaptured := true, requestAddr := request, dataComplete := true, requestData := data,
        requestSubmitted := true, requestPending := true, addrReady := false,
        dataReady := false }, some (request, data)) := by
      simp [hEdge, WriteDriver.submit, WriteDriver.driveReady, hSubmitted]
    have hNext : c.aw = some request := hHeld rfl
    have hBeat : c.w.isSome = true := hHeldData rfl
    apply Phase.waiting <;> try simp [clock, hSubmit, hNext, hBeat, hQueue, hLatch,
      hValid, hAccepted]
    · simpa [hNext] using hPresented
    · simpa using hBursts
  · have hOpen : (captured && complete) = false := by simpa using hBoth
    have hCollecting : s.edge c = ({ s.driver with
        addrCaptured := captured, requestAddr := request, dataComplete := complete,
        requestData := data, addrReady := !captured, dataReady := !complete }, none) := by
      have hRoom : complete = false → data.length < 256 := by
        rintro rfl
        simpa [hBursts] using hBounded
      cases complete <;>
        simp_all [WriteDriver.submit, WriteDriver.driveReady]
    apply Phase.collecting <;> try simp [clock, hCollecting, hPending, hSubmitted, hOpen, hQueue,
      hLatch, hValid, hAnswered, hAccepted]
    · exact ⟨rfl, hHeld, hPresented⟩
    · exact ⟨rfl, hHeldData, hBursts⟩

theorem first_step {c : WriteClock} (hLegal : Legal {} c) : (clock {} c).Phase := by
  obtain ⟨hAddr, hData⟩ := hLegal.quiet rfl
  have hQueued : c.queued = none := by simpa using hLegal.answers
  apply Phase.collecting <;> try simp [clock, edge, WriteDriver.onFallingEdge,
    WriteDriver.driveResponse, WriteDriver.captureAddr, WriteDriver.captureData,
    WriteDriver.submit, WriteDriver.driveReady, hAddr, hData, hQueued]
  · constructor <;> simp [Channel.presented, Channel.rise]
  · constructor <;> simp [Channel.presented, Channel.rise, splitBursts]

theorem elim_queueResponse (d : WriteDriver) (queued : Option AxiWResp) :
    queued.elim d d.queueResponse = { d with responses := d.responses ++ queued.toList } := by
  cases queued <;> simp [WriteDriver.queueResponse]

/-- A waiting driver either keeps waiting or has just seen its response accepted; the core
holds both channels throughout. -/
theorem waiting_step {s : WriteBus} {c : WriteClock} (hPending : s.driver.requestPending = true)
    (hSubmitted : s.driver.requestSubmitted = true) (hCaptured : s.driver.addrCaptured = true)
    (hComplete : s.driver.dataComplete = true) (hAddrReady : s.driver.addrReady = false)
    (hDataReady : s.driver.dataReady = false) (hOffer : s.aw.offer.isSome = true)
    (hBeat : s.w.offer.isSome = true) (hAddr : s.aw.presented = s.submitted.map Prod.fst)
    (hData : splitBursts s.w.presented = (s.submitted.map Prod.snd, []))
    (hQueue : s.driver.responses.length = if s.unanswered then 0 else 1)
    (hLatch : s.driver.responseHandshakePending = (s.driver.respValid && s.bReady))
    (hValid : s.driver.respValid = true → s.driver.responses ≠ [])
    (hAccepted : s.accepted + 1 = s.submitted.length) (hLegal : s.Legal c) : (s.clock c).Phase := by
  obtain ⟨request, hOffer⟩ := Option.isSome_iff_exists.mp hOffer
  obtain ⟨beat, hBeat⟩ := Option.isSome_iff_exists.mp hBeat
  have hHolds : s.aw.Holds false c.aw := hAddrReady ▸ hLegal.held
  have hHoldsData : s.w.Holds false c.w := hDataReady ▸ hLegal.heldData
  have hAw := hHolds.rise_eq hOffer
  have hW := hHoldsData.rise_eq hBeat
  cases hPop : s.driver.responseHandshakePending with
  | true =>
    have hBoth : s.driver.respValid = true ∧ s.bReady = true := by
      simpa [hPop] using hLatch.symm
    have hAnswered : s.unanswered = false := by
      cases hUnanswered : s.unanswered with
      | false => rfl
      | true =>
        rw [hUnanswered] at hQueue
        exact absurd (List.length_eq_zero_iff.mp hQueue) (hValid hBoth.1)
    have hQueued : c.queued = none := by
      have := hLegal.answers
      rw [hAnswered] at this
      simpa using this
    obtain ⟨response, hResponses⟩ : ∃ response, s.driver.responses = [response] := by
      rw [hAnswered] at hQueue
      exact List.length_eq_one_iff.mp hQueue
    have hReleased : s.edge c = ({ s.driver.retireResponse with
        respValid := false, responseHandshakePending := false, addrReady := true,
        dataReady := true }, none) := by
      simp [edge, WriteDriver.onFallingEdge, WriteDriver.retireResponse, WriteDriver.driveResponse,
        WriteDriver.captureAddr, WriteDriver.captureData, WriteDriver.submit,
        WriteDriver.driveReady, hQueued, hPop, hResponses, hAddrReady, hDataReady]
    apply Phase.collecting <;> try simp [clock, hReleased, WriteDriver.retireResponse, hResponses,
      hAnswered, hBoth, hAccepted]
    · exact ⟨rfl, by simp, by simp [hAddrReady, hAw, hAddr]⟩
    · exact ⟨rfl, by simp, by simp [hDataReady, hW, hData]⟩
  | false =>
    have hWaiting : s.edge c = ({ s.driver with
        responses := s.driver.responses ++ c.queued.toList
        respValid := !(s.driver.responses ++ c.queued.toList).isEmpty
        resp := (s.driver.responses ++ c.queued.toList).headD s.driver.resp
        responseHandshakePending :=
          !(s.driver.responses ++ c.queued.toList).isEmpty && c.respReady }, none) := by
      simp [edge, elim_queueResponse, WriteDriver.onFallingEdge, WriteDriver.driveResponse,
        WriteDriver.captureAddr, WriteDriver.captureData, WriteDriver.submit,
        WriteDriver.driveReady, hPop, hPending, hSubmitted, hAddrReady, hDataReady]
    have hCount : (s.driver.responses ++ c.queued.toList).length =
        if s.unanswered && !c.queued.isSome then 0 else 1 := by
      have hAnswers := hLegal.answers
      rw [List.length_append, hQueue]
      cases hUnanswered : s.unanswered <;> cases hQueued : c.queued <;> simp_all
    have hStill : (s.driver.respValid && s.bReady) = false := by rw [← hLatch, hPop]
    apply Phase.waiting <;> try simp only [clock, hWaiting]
    · exact hPending
    · exact hSubmitted
    · exact hCaptured
    · exact hComplete
    · exact hAddrReady
    · exact hDataReady
    · simp [hHolds.next_eq hOffer]
    · simp [hHoldsData.next_eq hBeat]
    · simp [hAddrReady, hAw, hAddr]
    · simp [hDataReady, hW, hData]
    · simpa using hCount
    · intro hNonempty hNil
      simp [hNil] at hNonempty
    · simpa [hStill] using hAccepted

theorem Phase.step {s : WriteBus} {c : WriteClock} (h : s.Phase) (hLegal : s.Legal c) :
    (s.clock c).Phase := by
  cases h with
  | collecting _ hPending hSubmitted _ hAddr hData hQueue hLatch hValid hAnswered hAccepted =>
    exact collecting_step hPending hSubmitted hAddr hData hQueue hLatch hValid hAnswered hAccepted
      hLegal
  | waiting _ hPending hSubmitted hCaptured hComplete hAddrReady hDataReady hOffer hBeat hAddr hData
      hQueue hLatch hValid hAccepted =>
    exact waiting_step hPending hSubmitted hCaptured hComplete hAddrReady hDataReady hOffer hBeat
      hAddr hData hQueue hLatch hValid hAccepted hLegal

theorem write_bursts_collected_once (cs : List WriteClock) (hLegal : Admits Legal clock {} cs) :
    (cs.foldl clock {}).CollectedInOrder ∧ (cs.foldl clock {}).Backpressured := by
  have hReached : cs.foldl clock {} = {} ∨ (cs.foldl clock {}).Phase := by
    refine hLegal.invariant (I := fun s => s = {} ∨ s.Phase) (.inl rfl) ?_
    rintro s c (rfl | hPhase) hc
    · exact .inr (first_step hc)
    · exact .inr (hPhase.step hc)
  rcases hReached with hFresh | hPhase
  · rw [hFresh]
    exact ⟨⟨rfl, List.nil_prefix⟩, fun hLate => absurd hLate (by decide)⟩
  · exact ⟨hPhase.collected_in_order, hPhase.backpressured⟩

/-- A two-beat burst whose data runs ahead of its address, answered at once, and a single beat
presented together with its address right after. -/
def dataFirstThenTogether : List WriteClock :=
  let first : AxiAddr := { addr := 0x20000000, len := 1, size := 4, burst := 1, id := 3 }
  let second : AxiAddr := { addr := 0x20000040, size := 4, burst := 1, id := 5 }
  [{}, { w := some { strb := 0xffff } }, { w := some { strb := 0xffff, last := true } },
    { w := some { strb := 0xffff, last := true }, aw := some first },
    { w := some { strb := 0xffff, last := true }, aw := some first,
      queued := some { id := 3 }, respReady := true },
    { w := some { strb := 0xffff, last := true }, aw := some first },
    { w := some { strb := 0x000f, last := true }, aw := some second }]

theorem write_bursts_data_first :
    (dataFirstThenTogether.foldl clock {}).submitted.map (fun r => (r.1.id, r.2.map (·.strb))) =
        [(3, [0xffff, 0xffff]), (5, [0x000f])] ∧
      (dataFirstThenTogether.foldl clock {}).CollectedInOrder ∧
      (dataFirstThenTogether.foldl clock {}).Backpressured :=
  ⟨by decide, write_bursts_collected_once dataFirstThenTogether (by decide)⟩

end WriteBus
end OpenNpux.Bridge
