import OpenNpux.Bridge.Handle
import OpenNpux.Lib.Run

/-!
# The single request slot

Both drivers leave their requests in one slot, and every slave access clocks the core
while a request is outstanding. A ledger beside the handle records the requests that a
callback leaves without a response, and the responses that each completion queues. As
long as no burst reaches the slot while it is taken, the recorded requests are the
answered ones followed by the one that `dmaRequestGet` returns.
-/

namespace OpenNpux.Bridge

open Lib

def queuedRead (before after : Handle) : List AxiRData :=
  after.masterRead.responses.drop before.masterRead.responses.length

def queuedWrite (before after : Handle) : List AxiWResp :=
  after.masterWrite.responses.drop before.masterWrite.responses.length

namespace Handle

section Ledger

variable {F : Type} (cfg : BridgeConfig F)

/-- The request handed over at a falling edge, if its callback queues no response. -/
def deferredRead (h : Handle) (pins : ReadPins) : List DmaRequest :=
  let edge := h.masterRead.onFallingEdge pins
  let h := { h with masterRead := edge.1 }
  match edge.2 with
  | none => []
  | some a => if (queuedRead h (h.readCallback cfg a)).isEmpty then [readRequest a] else []

def deferredWrite (h : Handle) (pins : WritePins) : List DmaRequest :=
  let edge := h.masterWrite.onFallingEdge pins
  let h := { h with masterWrite := edge.1 }
  match edge.2 with
  | none => []
  | some (a, data) =>
    if (queuedWrite h (h.writeCallback cfg a data)).isEmpty then [writeRequest a data] else []

def deferredClock (h : Handle) (c : CoreClock) : List DmaRequest :=
  h.deferredRead cfg c.readPins ++ (h.readEdge cfg c.readPins).deferredWrite cfg c.writePins

/-- The clocks of a slave access, each with the handle that it finds. -/
def mmioVisits (h : Handle) : List CoreClock → List (Handle × CoreClock)
  | [] => []
  | c :: clocks => (h, c) :: mmioVisits (h.wrapperStep cfg c) clocks

/-- The clocks that the loop of `coral_gem5_step` runs before it returns. -/
def stepLoopVisits (h : Handle) : List CoreClock → List (Handle × CoreClock)
  | [] => []
  | c :: clocks =>
    if h.faultSeen || h.halted then []
    else
      let next := h.stepClock cfg c
      ({ h with rtlCycles := h.rtlCycles + 1 }, c) ::
        if next.dmaPending || next.faultSeen || next.halted then [] else stepLoopVisits next clocks

def stepVisits (h : Handle) (clocks : List CoreClock) : List (Handle × CoreClock) :=
  if h.dmaPending then [] else h.stepLoopVisits cfg clocks

end Ledger
end Handle

/-- A call of the C interface; the clocks are what the core does meanwhile. -/
inductive Call
  | step (clocks : List CoreClock)
  | mmio (clocks : List CoreClock)
  | requestGet
  | complete (payload : Option (ByteMem × Nat)) (error : Bool)
  | extmemEnable (enable : Bool)

/-- The responses that one completion queues on the two channels. -/
structure Answer where
  read : List AxiRData
  write : List AxiWResp

structure Tracked where
  handle : Handle
  deferred : List DmaRequest := []
  answers : List Answer := []

section Calls

variable {F : Type} (cfg : BridgeConfig F)

def Tracked.visits (s : Tracked) : Call → List (Handle × CoreClock)
  | .step clocks => s.handle.stepVisits cfg clocks
  | .mmio clocks => s.handle.mmioVisits cfg clocks
  | _ => []

def Call.run (h : Handle) : Call → Handle × Int
  | .step clocks => h.step cfg clocks
  | .mmio clocks => (h.mmioAccess cfg clocks, 0)
  | .requestGet => (h, if h.dmaPending then 1 else 0)
  | .complete payload error => h.dmaComplete payload error
  | .extmemEnable enable => h.extmemEnable enable

def Tracked.call (s : Tracked) (call : Call) : Tracked :=
  let h := (call.run cfg s.handle).1
  { handle := h
    deferred := s.deferred ++ (s.visits cfg call).flatMap fun v => v.1.deferredClock cfg v.2
    answers := match call with
      | .complete payload error =>
        if (s.handle.dmaComplete payload error).2 = 0 then
          s.answers ++ [⟨queuedRead s.handle h, queuedWrite s.handle h⟩]
        else s.answers
      | _ => s.answers }

end Calls

/-- The responses of a request are on its own channel and carry its id: the beats of a
burst, or one write response. -/
def Answers (request : DmaRequest) (answer : Answer) : Prop :=
  match request.type with
  | .read => answer.write = [] ∧ ∃ n > 0, ExactBurst request.id n answer.read
  | .write => answer.read = [] ∧ ∃ response, answer.write = [response] ∧ response.id = request.id

/-- Every recorded request has been answered, or is what the host is shown. -/
def Tracked.Intact (s : Tracked) : Prop :=
  ∃ answered, s.deferred = answered ++ s.handle.dmaRequestGet.toList ∧
    List.Forall₂ Answers answered s.answers

/-! ## Bursts that find the slot taken -/

namespace Handle

variable {F : Type} (cfg : BridgeConfig F)

/-- A read burst handed over while the slot is taken is refused before it gets there. -/
def readLeavesSlot (h : Handle) (pins : ReadPins) : Bool :=
  !h.dmaPending || match (h.masterRead.onFallingEdge pins).2 with
    | none => true
    | some a => inRegisterWindow a || !decide a.Accepted

/-- The write builder clears the slot once the shape is accepted. -/
def writeLeavesSlot (h : Handle) (pins : WritePins) : Bool :=
  !h.dmaPending || match (h.masterWrite.onFallingEdge pins).2 with
    | none => true
    | some (a, data) => inRegisterWindow a || !shapeAccepted a data

def clockLeavesSlot (h : Handle) (c : CoreClock) : Bool :=
  h.readLeavesSlot c.readPins && (h.readEdge cfg c.readPins).writeLeavesSlot c.writePins

end Handle

/-- The number of beats of an outstanding read is known. -/
def BeatsKnown (h : Handle) : Prop :=
  h.dmaPending = true → h.pendingDma.type = .read → 0 < h.dmaBeatCount

/-- The slot before and after, with the requests recorded in between. -/
structure SlotStep (h h' : Handle) (deferred : List DmaRequest) : Prop where
  slot : h'.dmaRequestGet.toList = h.dmaRequestGet.toList ++ deferred
  beats : BeatsKnown h → BeatsKnown h'

namespace SlotStep

variable {h h' h'' : Handle} {deferred deferred' : List DmaRequest}

theorem of_same (hPending : h'.dmaPending = h.dmaPending) (hSlot : h'.pendingDma = h.pendingDma)
    (hCount : h'.dmaBeatCount = h.dmaBeatCount) : SlotStep h h' [] where
  slot := by simp [Handle.dmaRequestGet, hPending, hSlot]
  beats := by simp [BeatsKnown, hPending, hSlot, hCount]

theorem of_free (hBefore : h.dmaPending = false) (hAfter : h'.dmaPending = false) :
    SlotStep h h' [] where
  slot := by simp [Handle.dmaRequestGet, hBefore, hAfter]
  beats := by simp [BeatsKnown, hAfter]

theorem trans (h₁ : SlotStep h h' deferred) (h₂ : SlotStep h' h'' deferred') :
    SlotStep h h'' (deferred ++ deferred') where
  slot := by rw [h₂.slot, h₁.slot, List.append_assoc]
  beats := fun hKnown => h₂.beats (h₁.beats hKnown)

end SlotStep

theorem queuedRead_of_append {h h' : Handle} {beats : List AxiRData}
    (hQueued : h'.masterRead.responses = h.masterRead.responses ++ beats) :
    queuedRead h h' = beats := by
  rw [queuedRead, hQueued, List.drop_left]

theorem queuedWrite_of_append {h h' : Handle} {responses : List AxiWResp}
    (hQueued : h'.masterWrite.responses = h.masterWrite.responses ++ responses) :
    queuedWrite h h' = responses := by
  rw [queuedWrite, hQueued, List.drop_left]

theorem dataBeats_ne_nil (request : DmaRequest) (beatSize : Nat) {beatCount : Nat}
    (h : 0 < beatCount) (source : Nat → UInt8) :
    (dataBeats request beatSize beatCount source).isEmpty = false := by
  simp [dataBeats, List.isEmpty_eq_false_iff, Nat.ne_of_gt h]

namespace Handle

variable {F : Type} (cfg : BridgeConfig F) {h : Handle}

theorem readCallback_slotStep {a : AxiAddr}
    (hLeaves : h.dmaPending = true → inRegisterWindow a = true ∨ ¬ a.Accepted) :
    SlotStep h (h.readCallback cfg a)
      (if (queuedRead h (h.readCallback cfg a)).isEmpty then [readRequest a] else []) := by
  have hTaken := h.readCallback_taken cfg a
  generalize h.readCallback cfg a = taken at hTaken
  have hFree : inRegisterWindow a = false → a.Accepted → h.dmaPending = false := by
    intro hWindow hAccepted
    cases hPending : h.dmaPending with
    | false => rfl
    | true => simpa [hWindow, hAccepted] using hLeaves hPending
  cases hTaken with
  | register beat =>
    rw [queuedRead_of_append rfl]
    exact .of_same rfl rfl rfl
  | rejected =>
    rw [queuedRead_of_append rfl]
    exact .of_same rfl rfl rfl
  | served hWindow hAccepted =>
    have hPending := hFree hWindow hAccepted
    rw [queuedRead_of_append rfl, dataBeats_ne_nil _ _ a.beats_pos]
    exact .of_free hPending hPending
  | deferred hWindow hAccepted =>
    have hQueued : queuedRead h (h.deferRead a) = [] :=
      queuedRead_of_append (List.append_nil _).symm
    rw [hQueued]
    refine ⟨?_, fun _ _ _ => a.beats_pos⟩
    simp [dmaRequestGet, hFree hWindow hAccepted, deferRead]

theorem writeCallback_slotStep {a : AxiAddr} {data : List AxiWData}
    (hLeaves : h.dmaPending = true → inRegisterWindow a = true ∨ shapeAccepted a data = false) :
    SlotStep h (h.writeCallback cfg a data)
      (if (queuedWrite h (h.writeCallback cfg a data)).isEmpty then [writeRequest a data]
        else []) := by
  have hTaken := h.writeCallback_taken cfg a data
  generalize h.writeCallback cfg a data = taken at hTaken
  have hFree : inRegisterWindow a = false → shapeAccepted a data = true → h.dmaPending = false := by
    intro hWindow hShape
    cases hPending : h.dmaPending with
    | false => rfl
    | true => simpa [hWindow, hShape] using hLeaves hPending
  cases hTaken with
  | register _ _ hFrame =>
    obtain ⟨response, -, hQueued⟩ := hFrame.masterWrite
    rw [queuedWrite_of_append (congrArg WriteDriver.responses hQueued)]
    exact .of_same hFrame.dmaPending hFrame.pendingDma hFrame.dmaBeatCount
  | rejected hWindow =>
    rw [queuedWrite_of_append rfl]
    cases hShape : shapeAccepted a data with
    | false => exact .of_same rfl (buildGem5DmaWriteRequest_keeps_slot hShape _) rfl
    | true => exact .of_free (hFree hWindow hShape) (hFree hWindow hShape)
  | served hWindow hBuilt =>
    have hPending := hFree hWindow (shapeAccepted_of_built hBuilt)
    rw [queuedWrite_of_append rfl]
    exact .of_free hPending hPending
  | deferred hWindow hBuilt =>
    have hQueued : queuedWrite h (h.deferWrite a data) = [] :=
      queuedWrite_of_append (List.append_nil _).symm
    rw [hQueued]
    refine ⟨?_, fun _ _ hRead => by cases hRead⟩
    simp [dmaRequestGet, hFree hWindow (shapeAccepted_of_built hBuilt), deferWrite]

theorem readEdge_slotStep {pins : ReadPins} (hLeaves : h.readLeavesSlot pins = true) :
    SlotStep h (h.readEdge cfg pins) (h.deferredRead cfg pins) := by
  have hCapture : SlotStep h { h with masterRead := (h.masterRead.onFallingEdge pins).1 } [] :=
    .of_same rfl rfl rfl
  simp only [readEdge, deferredRead]
  cases hEdge : (h.masterRead.onFallingEdge pins).2 with
  | none => exact hCapture
  | some a =>
    refine hCapture.trans (readCallback_slotStep cfg fun hPending => ?_)
    have hTaken : h.dmaPending = true := hPending
    simpa [readLeavesSlot, hTaken, hEdge] using hLeaves

theorem writeEdge_slotStep {pins : WritePins} (hLeaves : h.writeLeavesSlot pins = true) :
    SlotStep h (h.writeEdge cfg pins) (h.deferredWrite cfg pins) := by
  have hCapture : SlotStep h { h with masterWrite := (h.masterWrite.onFallingEdge pins).1 } [] :=
    .of_same rfl rfl rfl
  simp only [writeEdge, deferredWrite]
  cases hEdge : (h.masterWrite.onFallingEdge pins).2 with
  | none => exact hCapture
  | some burst =>
    refine hCapture.trans (writeCallback_slotStep cfg fun hPending => ?_)
    have hTaken : h.dmaPending = true := hPending
    simpa [writeLeavesSlot, hTaken, hEdge] using hLeaves

theorem wrapperStep_slotStep {c : CoreClock} (hLeaves : h.clockLeavesSlot cfg c = true) :
    SlotStep h (h.wrapperStep cfg c) (h.deferredClock cfg c) := by
  rw [clockLeavesSlot, Bool.and_eq_true] at hLeaves
  have hEdges := (readEdge_slotStep cfg hLeaves.1).trans (writeEdge_slotStep cfg hLeaves.2)
  have hFlags : SlotStep ((h.readEdge cfg c.readPins).writeEdge cfg c.writePins)
      (h.wrapperStep cfg c) [] := .of_same rfl rfl rfl
  simpa [deferredClock] using hEdges.trans hFlags

/-! ## Calls -/

theorem mmioAccess_slotStep {clocks : List CoreClock}
    (hLeaves : ∀ v ∈ h.mmioVisits cfg clocks, v.1.clockLeavesSlot cfg v.2 = true) :
    SlotStep h (h.mmioAccess cfg clocks)
      ((h.mmioVisits cfg clocks).flatMap fun v => v.1.deferredClock cfg v.2) := by
  induction clocks generalizing h with
  | nil => exact .of_same rfl rfl rfl
  | cons c clocks ih =>
    have hFirst := wrapperStep_slotStep cfg (hLeaves (h, c) List.mem_cons_self)
    exact hFirst.trans (ih fun v hv => hLeaves v (List.mem_cons_of_mem _ hv))

theorem stepClock_slotStep {c : CoreClock}
    (hLeaves : { h with rtlCycles := h.rtlCycles + 1 }.clockLeavesSlot cfg c = true) :
    SlotStep h (h.stepClock cfg c)
      ({ h with rtlCycles := h.rtlCycles + 1 }.deferredClock cfg c) := by
  have hBefore : SlotStep h { h with rtlCycles := h.rtlCycles + 1 } [] := .of_same rfl rfl rfl
  have hAfter : SlotStep ({ h with rtlCycles := h.rtlCycles + 1 }.wrapperStep cfg c)
      (h.stepClock cfg c) [] := .of_same rfl rfl rfl
  simpa using (hBefore.trans (wrapperStep_slotStep cfg hLeaves)).trans hAfter

theorem stepLoop_cons (h : Handle) (c : CoreClock) (clocks : List CoreClock) :
    (h.stepLoop cfg (c :: clocks)).1 =
      if h.faultSeen || h.halted then h
      else if (h.stepClock cfg c).dmaPending || (h.stepClock cfg c).faultSeen ||
          (h.stepClock cfg c).halted then h.stepClock cfg c
      else ((h.stepClock cfg c).stepLoop cfg clocks).1 := by
  simp only [stepLoop, Bool.or_eq_true]
  split_ifs <;> simp_all

theorem stepLoop_slotStep {clocks : List CoreClock}
    (hLeaves : ∀ v ∈ h.stepLoopVisits cfg clocks, v.1.clockLeavesSlot cfg v.2 = true) :
    SlotStep h (h.stepLoop cfg clocks).1
      ((h.stepLoopVisits cfg clocks).flatMap fun v => v.1.deferredClock cfg v.2) := by
  induction clocks generalizing h with
  | nil => exact .of_same rfl rfl rfl
  | cons c clocks ih =>
    rw [stepLoop_cons]
    rw [stepLoopVisits] at hLeaves ⊢
    by_cases hStopped : (h.faultSeen || h.halted) = true
    · rw [if_pos hStopped, if_pos hStopped]
      exact .of_same rfl rfl rfl
    rw [if_neg hStopped] at hLeaves ⊢
    rw [if_neg hStopped]
    have hFirst := stepClock_slotStep cfg (hLeaves _ List.mem_cons_self)
    by_cases hReturns : ((h.stepClock cfg c).dmaPending || (h.stepClock cfg c).faultSeen ||
        (h.stepClock cfg c).halted) = true
    · simpa only [if_pos hReturns, List.flatMap_cons, List.flatMap_nil,
        List.append_nil] using hFirst
    · simp only [if_neg hReturns, List.flatMap_cons] at hLeaves ⊢
      exact hFirst.trans (ih fun v hv => hLeaves v (List.mem_cons_of_mem _ hv))

theorem step_slotStep {clocks : List CoreClock}
    (hLeaves : ∀ v ∈ h.stepVisits cfg clocks, v.1.clockLeavesSlot cfg v.2 = true) :
    SlotStep h (h.step cfg clocks).1
      ((h.stepVisits cfg clocks).flatMap fun v => v.1.deferredClock cfg v.2) := by
  rw [stepVisits] at hLeaves ⊢
  rw [step]
  by_cases hPending : h.dmaPending = true
  · rw [if_pos hPending, if_pos hPending]
    split_ifs
    · exact .of_same rfl rfl rfl
    · exact .of_same rfl rfl rfl
  rw [if_neg hPending] at hLeaves ⊢
  rw [if_neg hPending]
  split_ifs with hNone
  · rw [hNone]
    exact .of_same rfl rfl rfl
  · exact stepLoop_slotStep cfg hLeaves

theorem extmemEnable_slotStep (enable : Bool) : SlotStep h (h.extmemEnable enable).1 [] := by
  rw [extmemEnable]
  split
  · exact .of_same rfl rfl rfl
  · exact .of_same rfl rfl rfl

/-- A completion that is refused changes nothing; any other frees the slot and answers it. -/
theorem dmaComplete_answers (hKnown : BeatsKnown h) (payload : Option (ByteMem × Nat))
    (error : Bool) :
    h.dmaComplete payload error = (h, -1) ∨
      ∃ h', h.dmaComplete payload error = (h', 0) ∧ h.dmaRequestGet = some h.pendingDma ∧
        h'.dmaPending = false ∧ Answers h.pendingDma ⟨queuedRead h h', queuedWrite h h'⟩ := by
  have hCompleted := h.dmaComplete_completed payload error
  generalize h.dmaComplete payload error = completed at hCompleted
  cases hCompleted with
  | refused => exact .inl rfl
  | read n beats hPending hType hCount hBeats =>
    refine .inr ⟨_, rfl, if_pos hPending, rfl, ?_⟩
    rw [Answers, hType]
    have hRead : queuedRead h (h.queueRead beats).clearSlot = beats := queuedRead_of_append rfl
    refine ⟨queuedWrite_of_append (List.append_nil _).symm, n, ?_, by rwa [hRead]⟩
    rcases hCount with rfl | rfl
    · exact Nat.one_pos
    · exact hKnown hPending hType
  | write response hPending hType hId =>
    refine .inr ⟨_, rfl, if_pos hPending, rfl, ?_⟩
    rw [Answers, hType]
    exact ⟨queuedRead_of_append (List.append_nil _).symm, response, queuedWrite_of_append rfl, hId⟩

end Handle

namespace Tracked

variable {F : Type} (cfg : BridgeConfig F)

def callLeavesSlot (s : Tracked) (call : Call) : Bool :=
  (s.visits cfg call).all fun v => v.1.clockLeavesSlot cfg v.2

structure Sound (s : Tracked) : Prop where
  intact : s.Intact
  beats : BeatsKnown s.handle

theorem Sound.of_slotStep {s : Tracked} {h : Handle} {deferred : List DmaRequest} (hSound : s.Sound)
    (hStep : SlotStep s.handle h deferred) :
    Sound { s with handle := h, deferred := s.deferred ++ deferred } := by
  obtain ⟨answered, hDeferred, hAnswers⟩ := hSound.intact
  refine ⟨⟨answered, ?_, hAnswers⟩, hStep.beats hSound.beats⟩
  rw [hStep.slot, hDeferred, List.append_assoc]

theorem Sound.complete {s : Tracked} (hSound : s.Sound) (payload : Option (ByteMem × Nat))
    (error : Bool) : (s.call cfg (.complete payload error)).Sound := by
  obtain ⟨answered, hDeferred, hAnswers⟩ := hSound.intact
  rcases Handle.dmaComplete_answers hSound.beats payload error with
    hRefused | ⟨h, hDone, hSlot, hFree, hAnswer⟩
  · simp only [call, visits, Call.run, hRefused]
    exact hSound.of_slotStep (.of_same rfl rfl rfl)
  · have hNone : h.dmaRequestGet = none := by simp [Handle.dmaRequestGet, hFree]
    simp only [call, visits, Call.run, hDone]
    refine ⟨⟨answered ++ [s.handle.pendingDma], ?_, ?_⟩, by simp [BeatsKnown, hFree]⟩
    · simp [hDeferred, hSlot, hNone]
    · exact List.rel_append hAnswers (.cons hAnswer .nil)

theorem Sound.call {s : Tracked} (hSound : s.Sound) {call : Call}
    (hLeaves : s.callLeavesSlot cfg call = true) : (s.call cfg call).Sound := by
  have hVisits := List.all_eq_true.mp hLeaves
  cases call with
  | step clocks => exact hSound.of_slotStep (Handle.step_slotStep cfg hVisits)
  | mmio clocks => exact hSound.of_slotStep (Handle.mmioAccess_slotStep cfg hVisits)
  | requestGet => exact hSound.of_slotStep (.of_same rfl rfl rfl)
  | complete payload error => exact hSound.complete cfg payload error
  | extmemEnable enable => exact hSound.of_slotStep (Handle.extmemEnable_slotStep enable)

theorem Intact.length {s : Tracked} (h : s.Intact) :
    s.deferred.length = s.answers.length + s.handle.dmaRequestGet.toList.length := by
  obtain ⟨answered, hDeferred, hAnswers⟩ := h
  rw [hDeferred, List.length_append, hAnswers.length_eq]

end Tracked

theorem dma_intact_of_calls_leave_slot {F : Type} (cfg : BridgeConfig F) (h : Handle)
    (hIdle : h.dmaPending = false) (calls : List Call)
    (hCalls : Admits (fun s call => s.callLeavesSlot cfg call = true) (Tracked.call cfg)
      { handle := h } calls) :
    (calls.foldl (Tracked.call cfg) { handle := h }).Intact := by
  have hStart : Tracked.Sound { handle := h } :=
    ⟨⟨[], by simp [Handle.dmaRequestGet, hIdle], .nil⟩, by simp [BeatsKnown, hIdle]⟩
  exact (hCalls.invariant hStart fun _ _ hSound hLeaves => hSound.call cfg hLeaves).intact

/-! ## A read, and a write that is captured behind it -/

/-- A read of one word from host memory, taken at the first clock. -/
def readClock : CoreClock where
  readPins := { addrValid := true, addr := { addr := 0x80000000, id := 1, size := 2, burst := 1 }
                dataReady := true }
  writePins := { addrValid := false, addr := {}, dataValid := false, data := {}, respReady := true }

def idleClock : CoreClock where
  readPins := { addrValid := false, addr := {}, dataReady := true }
  writePins := { addrValid := false, addr := {}, dataValid := false, data := {}, respReady := true }

/-- A write of one word to host memory, address and data together. -/
def writeClock : CoreClock where
  readPins := { addrValid := false, addr := {}, dataReady := true }
  writePins := { addrValid := true, addr := { addr := 0x80000040, id := 2, size := 2, burst := 1 }
                 dataValid := true, data := { strb := 0xf, last := true }, respReady := true }

/-- With the completion between them, both requests are answered in turn. -/
theorem dma_intact_read_then_write :
    let calls := [.step [idleClock, readClock], .requestGet, .complete (some (fun _ => 7, 4)) false,
      .mmio [idleClock, writeClock], .complete none false]
    let s := calls.foldl (Tracked.call plainConfig) { handle := {} }
    s.deferred.length = 2 ∧ s.Intact :=
  ⟨by decide +kernel, dma_intact_of_calls_leave_slot plainConfig {} rfl _ (by decide +kernel)⟩

/-- A slave access during the read lets the write into the slot, and the read is lost. -/
theorem dma_read_lost_behind_write :
    let s := [Call.step [idleClock, readClock]].foldl (Tracked.call plainConfig) { handle := {} }
    let s' := [Call.step [idleClock, readClock], .mmio [idleClock, writeClock]].foldl
      (Tracked.call plainConfig) { handle := {} }
    (s.handle.dmaRequestGet.map fun request => (request.type, request.id)) = some (.read, 1) ∧
      (s'.handle.dmaRequestGet.map fun request => (request.type, request.id)) = some (.write, 2) ∧
      s'.answers.length = 0 ∧ ¬ s'.Intact := by
  refine ⟨by decide +kernel, by decide +kernel, by decide +kernel, fun h => ?_⟩
  exact absurd h.length (by decide +kernel)

end OpenNpux.Bridge
