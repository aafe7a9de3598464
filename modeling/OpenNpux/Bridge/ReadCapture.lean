import OpenNpux.Bridge.MasterDrivers
import OpenNpux.Lib.Channel
import OpenNpux.Lib.Run

/-!
# Capture of AR transfers by the read driver

One clock is the responses queued since the last falling edge, the rising edge at
which the AR channel moves, and the falling edge at which the driver samples it.
The driver takes a request as soon as it sees it and lowers `ARREADY`, so a capture
runs ahead of its transfer. It recognises the next request only after it has seen
`ARVALID` low, which a core that continues back-to-back never shows it.
-/

namespace OpenNpux.Bridge

open Lib

/-- Beats are queued only while the pending request is owed its last one. -/
def AnswersOwed : Bool → List AxiRData → Prop
  | _, [] => True
  | owed, beat :: rest => owed = true ∧ AnswersOwed (!beat.last) rest

def owedAfter : Bool → List AxiRData → Bool
  | owed, [] => owed
  | _, beat :: rest => owedAfter (!beat.last) rest

instance AnswersOwed.decidable : (owed : Bool) → (beats : List AxiRData) →
    Decidable (AnswersOwed owed beats)
  | _, [] => .isTrue trivial
  | owed, beat :: rest =>
    have := AnswersOwed.decidable (!beat.last) rest
    inferInstanceAs (Decidable (owed = true ∧ AnswersOwed (!beat.last) rest))

theorem AnswersOwed.append {owed : Bool} {queue beats : List AxiRData}
    (h : AnswersOwed owed queue) (hBeats : AnswersOwed (owedAfter owed queue) beats) :
    AnswersOwed owed (queue ++ beats) := by
  induction queue generalizing owed with
  | nil => exact hBeats
  | cons beat queue ih => exact ⟨h.1, ih h.2 hBeats⟩

theorem owedAfter_append (owed : Bool) (queue beats : List AxiRData) :
    owedAfter owed (queue ++ beats) = owedAfter (owedAfter owed queue) beats := by
  induction queue generalizing owed with
  | nil => rfl
  | cons beat queue ih => exact ih (!beat.last)

theorem AnswersOwed.eq_nil {beats : List AxiRData} (h : AnswersOwed false beats) : beats = [] := by
  cases beats with
  | nil => rfl
  | cons beat rest => cases h.1

theorem ReadDriver.foldl_queueResponse (d : ReadDriver) (beats : List AxiRData) :
    beats.foldl queueResponse d = { d with responses := d.responses ++ beats } := by
  induction beats generalizing d with
  | nil => simp
  | cons beat rest ih => simp [ih, queueResponse]

/-- The driver, the AR channel between it and the core, and what has been observed. -/
structure ReadBus where
  driver : ReadDriver := {}
  ar : Channel AxiAddr := {}
  captured : List AxiAddr := []
  owed : Bool := false

structure ReadClock where
  queued : List AxiRData := []
  offer : Option AxiAddr := none
  dataReady : Bool := false

namespace ReadBus

def edge (s : ReadBus) (c : ReadClock) : ReadDriver × Option AxiAddr :=
  (c.queued.foldl ReadDriver.queueResponse s.driver).onFallingEdge
    { addrValid := c.offer.isSome, addr := c.offer.getD {}, dataReady := c.dataReady }

def clock (s : ReadBus) (c : ReadClock) : ReadBus where
  driver := (s.edge c).1
  ar := s.ar.rise s.driver.addrReady c.offer
  captured := s.captured ++ (s.edge c).2.toList
  owed := (s.edge c).2.isSome || owedAfter s.owed c.queued

/-- The core holds an untaken address, and every captured request is answered by beats
of which exactly the last one is marked. -/
def Legal (s : ReadBus) (c : ReadClock) : Prop :=
  s.ar.Holds s.driver.addrReady c.offer ∧ AnswersOwed s.owed c.queued

instance (s : ReadBus) (c : ReadClock) : Decidable (s.Legal c) :=
  inferInstanceAs (Decidable (_ ∧ _))

/-- After a transfer the core lowers `ARVALID` for at least one falling edge. -/
def LowersAfterTransfer (s : ReadBus) (c : ReadClock) : Prop :=
  s.driver.addrReady = true → s.ar.offer.isSome = true → c.offer = none

instance (s : ReadBus) (c : ReadClock) : Decidable (s.LowersAfterTransfer c) :=
  inferInstanceAs (Decidable (_ → _ → _))

/-- The callback has seen the transferred addresses in order, and at most one more. -/
def CapturedInOrder (s : ReadBus) : Prop :=
  ∃ ahead, s.captured = s.ar.transferred ++ ahead ∧ ahead.length ≤ 1

/-- No clock from this state hands over a request while one is pending. -/
def SingleOutstanding (s : ReadBus) : Prop :=
  ∀ c, s.Legal c → (s.edge c).2.isSome = true → s.driver.requestPending = false

/-- Where the driver stands between two clocks of a core that lowers `ARVALID`. -/
inductive Phase (s : ReadBus) : Prop
  | idle (hOffer : s.ar.offer = none) (hPending : s.driver.requestPending = false)
      (hSeen : s.driver.requestSeen = false) (hReady : s.driver.addrReady = true)
      (hQueue : s.driver.responses = []) (hHandshake : s.driver.responseHandshakePending = false)
      (hOwed : s.owed = false) (hCaptured : s.captured = s.ar.transferred)
  | waiting (request : AxiAddr) (hOffer : s.ar.offer = some request)
      (hPending : s.driver.requestPending = true) (hSeen : s.driver.requestSeen = true)
      (hReady : s.driver.addrReady = false) (hQueue : AnswersOwed true s.driver.responses)
      (hHandshake : s.driver.responseHandshakePending = true → s.driver.responses ≠ [])
      (hOwed : s.owed = owedAfter true s.driver.responses)
      (hCaptured : s.captured = s.ar.transferred ++ [request])
  | released (request : AxiAddr) (hOffer : s.ar.offer = some request)
      (hPending : s.driver.requestPending = false) (hSeen : s.driver.requestSeen = true)
      (hReady : s.driver.addrReady = true) (hQueue : s.driver.responses = [])
      (hHandshake : s.driver.responseHandshakePending = false) (hOwed : s.owed = false)
      (hCaptured : s.captured = s.ar.transferred ++ [request])

theorem Phase.captured_in_order {s : ReadBus} (h : s.Phase) : s.CapturedInOrder := by
  cases h with
  | idle _ _ _ _ _ _ _ hCaptured => exact ⟨[], by simp [hCaptured], by simp⟩
  | waiting request _ _ _ _ _ _ _ hCaptured => exact ⟨[request], hCaptured, by simp⟩
  | released request _ _ _ _ _ _ _ hCaptured => exact ⟨[request], hCaptured, by simp⟩

theorem edge_none_of_stalled {s : ReadBus} (c : ReadClock) (h : s.driver.addrReady = false) :
    (s.edge c).2 = none := by
  simp [edge, ReadDriver.foldl_queueResponse, ReadDriver.onFallingEdge, h]

theorem Phase.single_outstanding {s : ReadBus} (h : s.Phase) : s.SingleOutstanding := by
  intro c _ hEdge
  cases h with
  | idle _ hPending => exact hPending
  | waiting _ _ _ _ hReady =>
    rw [edge_none_of_stalled c hReady] at hEdge
    cases hEdge
  | released _ _ hPending => exact hPending

theorem idle_step {s : ReadBus} (c : ReadClock) (hOffer : s.ar.offer = none)
    (hPending : s.driver.requestPending = false) (hSeen : s.driver.requestSeen = false)
    (hReady : s.driver.addrReady = true) (hQueue : s.driver.responses = [])
    (hHandshake : s.driver.responseHandshakePending = false) (hOwed : s.owed = false)
    (hCaptured : s.captured = s.ar.transferred) (hLegal : s.Legal c) : (s.clock c).Phase := by
  have hQueued : c.queued = [] := (hOwed ▸ hLegal.2).eq_nil
  cases hNext : c.offer with
  | none =>
    apply Phase.idle <;>
      simp [clock, edge, ReadDriver.onFallingEdge, ReadDriver.driveResponse,
        owedAfter, Channel.rise,
        hQueued, hNext, hOffer, hPending, hReady, hQueue, hHandshake, hOwed, hCaptured]
  | some request =>
    apply Phase.waiting request <;>
      simp [clock, edge, ReadDriver.onFallingEdge, ReadDriver.driveResponse,
        owedAfter, Channel.rise,
        AnswersOwed, hQueued, hNext, hOffer, hPending, hSeen, hReady, hQueue, hHandshake, hCaptured]

theorem released_step {s : ReadBus} (c : ReadClock) {request : AxiAddr}
    (hOffer : s.ar.offer = some request) (hPending : s.driver.requestPending = false)
    (hReady : s.driver.addrReady = true) (hQueue : s.driver.responses = [])
    (hHandshake : s.driver.responseHandshakePending = false) (hOwed : s.owed = false)
    (hCaptured : s.captured = s.ar.transferred ++ [request]) (hLegal : s.Legal c)
    (hLow : s.LowersAfterTransfer c) : (s.clock c).Phase := by
  have hQueued : c.queued = [] := (hOwed ▸ hLegal.2).eq_nil
  have hNext : c.offer = none := hLow hReady (by simp [hOffer])
  apply Phase.idle <;>
    simp [clock, edge, ReadDriver.onFallingEdge, ReadDriver.driveResponse, owedAfter, Channel.rise,
      hQueued, hNext, hOffer, hPending, hReady, hQueue, hHandshake, hOwed, hCaptured]

/-- A waiting driver either keeps waiting or has just popped the last beat; in both
cases the held address stays the newest captured one. -/
theorem waiting_step {s : ReadBus} (c : ReadClock) {request : AxiAddr}
    (hOffer : s.ar.offer = some request) (hPending : s.driver.requestPending = true)
    (hSeen : s.driver.requestSeen = true) (hReady : s.driver.addrReady = false)
    (hQueue : AnswersOwed true s.driver.responses)
    (hHandshake : s.driver.responseHandshakePending = true → s.driver.responses ≠ [])
    (hOwed : s.owed = owedAfter true s.driver.responses)
    (hCaptured : s.captured = s.ar.transferred ++ [request]) (hLegal : s.Legal c) :
    (s.clock c).Phase := by
  have hHolds : s.ar.Holds false c.offer := hReady ▸ hLegal.1
  have hNext : c.offer = some request := hHolds.next_eq hOffer
  have hAnswers : AnswersOwed true (s.driver.responses ++ c.queued) :=
    hQueue.append (hOwed ▸ hLegal.2)
  have hOwes : owedAfter s.owed c.queued = owedAfter true (s.driver.responses ++ c.queued) := by
    rw [owedAfter_append, ← hOwed]
  by_cases hPop : s.driver.responseHandshakePending = true
  · obtain ⟨beat, rest, hResponses⟩ := List.exists_cons_of_ne_nil (hHandshake hPop)
    rw [hResponses, List.cons_append] at hAnswers hOwes
    cases hLast : beat.last with
    | true =>
      -- the popped beat was the last one, so nothing else is queued
      have hRest : rest = [] ∧ c.queued = [] := by
        have hFalse : AnswersOwed false (rest ++ c.queued) := by simpa [hLast] using hAnswers.2
        exact List.append_eq_nil_iff.mp hFalse.eq_nil
      apply Phase.released request <;>
        simp [clock, edge, ReadDriver.onFallingEdge, ReadDriver.driveResponse,
          ReadDriver.retireResponse, owedAfter, Channel.rise, hResponses, hRest.1, hRest.2, hLast,
          hNext, hSeen, hReady, hPop, hOwed, hCaptured]
    | false =>
      apply Phase.waiting request <;>
        simp_all [clock, edge, ReadDriver.onFallingEdge, ReadDriver.driveResponse,
          ReadDriver.retireResponse, ReadDriver.foldl_queueResponse, owedAfter, AnswersOwed,
          Channel.rise]
  · apply Phase.waiting request <;>
      simp_all [clock, edge, ReadDriver.onFallingEdge, ReadDriver.driveResponse,
        ReadDriver.foldl_queueResponse, Channel.rise]

theorem Phase.step {s : ReadBus} (c : ReadClock) (h : s.Phase) (hLegal : s.Legal c)
    (hLow : s.LowersAfterTransfer c) : (s.clock c).Phase := by
  cases h with
  | idle hOffer hPending hSeen hReady hQueue hHandshake hOwed hCaptured =>
    exact idle_step c hOffer hPending hSeen hReady hQueue hHandshake hOwed hCaptured hLegal
  | waiting request hOffer hPending hSeen hReady hQueue hHandshake hOwed hCaptured =>
    exact waiting_step c hOffer hPending hSeen hReady hQueue hHandshake hOwed hCaptured hLegal
  | released request hOffer hPending _ hReady hQueue hHandshake hOwed hCaptured =>
    exact released_step c hOffer hPending hReady hQueue hHandshake hOwed hCaptured hLegal hLow

theorem initial_phase : ({} : ReadBus).Phase :=
  .idle rfl rfl rfl rfl rfl rfl rfl rfl

theorem ar_captured_once_of_lowered (cs : List ReadClock)
    (hLegal : Admits Legal clock {} cs) (hLow : Admits LowersAfterTransfer clock {} cs) :
    (cs.foldl clock {}).CapturedInOrder ∧ (cs.foldl clock {}).SingleOutstanding := by
  have hPhase : (cs.foldl clock {}).Phase :=
    (hLegal.and hLow).invariant initial_phase fun s c h hc => h.step c hc.1 hc.2
  exact ⟨hPhase.captured_in_order, hPhase.single_outstanding⟩

/-- One read of address `a` through to the falling edge after its transfer, where the core
offers `next`. -/
def readThenOffer (a : AxiAddr) (next : Option AxiAddr) : List ReadClock :=
  [{ offer := some a }, { offer := some a, queued := [{ last := true }], dataReady := true },
    { offer := some a }, { offer := next }]

theorem ar_captured_once_two_reads :
    let cs := readThenOffer { addr := 0x20000000 } none ++ readThenOffer { addr := 0x20000040 } none
    ((cs.foldl clock {}).captured = [{ addr := 0x20000000 }, { addr := 0x20000040 }]) ∧
      (cs.foldl clock {}).CapturedInOrder ∧ (cs.foldl clock {}).SingleOutstanding :=
  ⟨by decide, ar_captured_once_of_lowered _ (by decide) (by decide)⟩

theorem CapturedInOrder.length_le {s : ReadBus} (h : s.CapturedInOrder) :
    s.ar.transferred.length ≤ s.captured.length := by
  obtain ⟨ahead, hCaptured, _⟩ := h
  rw [hCaptured, List.length_append]
  exact Nat.le_add_right _ _

/-- The second address of a back-to-back pair is transferred and never captured. -/
theorem ar_back_to_back_lost :
    ¬ ∀ cs, Admits Legal clock {} cs → (cs.foldl clock {}).CapturedInOrder := by
  intro h
  let cs := readThenOffer { addr := 0x20000000 } (some { addr := 0x20000040 }) ++
    [{ offer := none }]
  have hLength := (h cs (by decide)).length_le
  exact absurd hLength (by decide)

/-- The condition is exact: a core that continues back-to-back once loses that request
at the next rising edge, whatever it does there. -/
theorem Phase.lost_of_not_lowered {s : ReadBus} {c : ReadClock} (h : s.Phase) (hLegal : s.Legal c)
    (hLow : ¬ s.LowersAfterTransfer c) (c' : ReadClock) (hLegal' : (s.clock c).Legal c') :
    ¬ ((s.clock c).clock c').CapturedInOrder := by
  cases h with
  | idle hOffer => exact absurd (fun _ hSome => by simp [hOffer] at hSome) hLow
  | waiting _ _ _ _ hReady => exact absurd (fun h => by simp [hReady] at h) hLow
  | released request hOffer hPending hSeen hReady hQueue hHandshake hOwed hCaptured =>
    have hQueued : c.queued = [] := (hOwed ▸ hLegal.2).eq_nil
    obtain ⟨lost, hNext⟩ : ∃ lost, c.offer = some lost := by
      rw [← Option.ne_none_iff_exists']
      exact fun hNone => hLow fun _ _ => hNone
    -- the flag left by the first request masks the second one at the falling edge
    have hStep : (s.clock c).captured = s.captured ∧ (s.clock c).ar.offer = some lost ∧
        (s.clock c).ar.transferred = s.captured ∧ (s.clock c).driver.addrReady = true ∧
        (s.clock c).driver.requestSeen = true ∧ (s.clock c).driver.requestPending = false ∧
        (s.clock c).driver.responseHandshakePending = false ∧ (s.clock c).owed = false := by
      simp [clock, edge, ReadDriver.onFallingEdge, ReadDriver.driveResponse, owedAfter,
        Channel.rise, hQueued, hNext, hOffer, hPending, hSeen, hReady, hQueue, hHandshake, hOwed,
        hCaptured]
    obtain ⟨hCaptured', hOffer', hTransferred', hReady', hSeen', hPending', hHandshake', hOwed'⟩ :=
      hStep
    have hQueued' : c'.queued = [] := (hOwed' ▸ hLegal'.2).eq_nil
    have hNone : ((s.clock c).edge c').2 = none := by
      cases hOffer'' : c'.offer <;>
        simp [edge, ReadDriver.onFallingEdge, ReadDriver.driveResponse, hQueued', hOffer'', hReady',
          hSeen', hPending', hHandshake']
    intro hOrder
    have hLength := hOrder.length_le
    change ((s.clock c).ar.rise (s.clock c).driver.addrReady c'.offer).transferred.length ≤
      ((s.clock c).captured ++ ((s.clock c).edge c').2.toList).length at hLength
    rw [hNone, hReady', hCaptured', Channel.rise_ready_transferred, Channel.presented,
      hTransferred', hOffer', Option.toList_none, List.append_nil] at hLength
    exact absurd hLength (by simp)

end ReadBus
end OpenNpux.Bridge
