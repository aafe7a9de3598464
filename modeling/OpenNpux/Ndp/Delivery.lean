import OpenNpux.Ndp.Attribution

/-!
# Every burst is handed over once

Under the condition on responses each of them is one retirement, and the ledger is an
invariant of the run. What it says at the end: no burst is handed over twice or before its
last response, and none is forgotten that waits for one. Without the condition a response
to one of two equal reads counts for both.
-/

namespace OpenNpux.Ndp

open Lib

variable {params : NdpParams}

/-! ## One response -/

theorem finishResponse_keeps {pkt : Packet} {log : List Event} {s : Engine}
    (h : Ledger params [pkt.key] log s) {index : Nat} (hPkt : s.inFlight[index]? = some pkt)
    {accepted : Bool} (hReturned : (finishResponse params index accepted s).result = some ()) :
    Ledger params [] (log ++ (finishResponse params index accepted s).trace)
        (finishResponse params index accepted s).state ∧
      ∀ e ∈ (finishResponse params index accepted s).trace, e.Quiet := by
  have hWake : Prog.Follows (Keeps params) (do
      let s ← Prog.get
      if !s.dmaActv && !s.pendingReqPackets.isEmpty then do
        Prog.modify fun s => { s with dmaActv := true }
        sendData params accepted
      else pure ()) :=
    .get_bind fun _ => .ite (.bind (.modify fun _ => keeps_of_same rfl rfl rfl) fun _ =>
      sendData_keeps accepted) (.pure ())
  have hKeeps := hWake _ () hReturned
  exact ⟨hKeeps.ledger _ _ (h.answer hPkt (s.flyReqs - 1)), hKeeps.quiet⟩

theorem Ledger.holders_ne_nil {log : List Event} {s : Engine} (h : Ledger params [] log s)
    {pkt : Packet} (hPkt : pkt ∈ s.inFlight) : s.holders pkt ≠ [] := by
  have hOwed : pkt.key ∈ s.owed := List.mem_map_of_mem (List.mem_append_left _ hPkt)
  have hWaits : pkt.key ∈ s.waits := by
    have hMatched := h.matched
    rw [List.append_nil] at hMatched
    exact hMatched.mem_iff.mpr hOwed
  obtain ⟨b, hb, hKey⟩ := List.mem_flatMap.mp hWaits
  exact List.ne_nil_of_mem (List.mem_filter.mpr ⟨hb, decide_eq_true hKey⟩)

/-- The response retires one sub-request of one burst, which has its kind and its range, and
hands the burst over if that was the last one. -/
structure Retirement (s : Engine) (pkt : Packet) (data : Bytes) (t : List Event)
    (b : BurstRequest) (sub : SubRequest) : Prop where
  burst : b ∈ s.pendingRequests
  waited : sub ∈ b.pendingSubRequests
  kind : b.writeRequest = pkt.write
  range : sub.addrRange = pkt.getAddrRange
  retires : Retires t [(b.id, sub, data)] (if b.pendingSubRequests.length = 1 then [b.id] else [])

theorem memCallback_retires (hPackets : params.BlockPackets) {log : List Event} {s : Engine}
    (h : Ledger params [] log s)
    (hSteady : s.Steady params) {index : Nat} {pkt : Packet} (hPkt : s.inFlight[index]? = some pkt)
    (hClear : s.Unambiguous pkt) {calls : List Access}
    (hCalls : ∀ call ∈ calls, 0 < call.size ∧ call.Regular params) (data : Bytes)
    (accepted : Bool) :
    Ledger params [] (log ++ (memCallback params index data calls accepted s).trace)
        (memCallback params index data calls accepted s).state ∧
      ∃ b sub, Retirement s pkt data (memCallback params index data calls accepted s).trace b
        sub := by
  have hFlight : pkt ∈ s.inFlight := List.mem_of_getElem? hPkt
  obtain ⟨hIndex, _⟩ := List.getElem?_eq_some_iff.mp hPkt
  obtain ⟨b, rest, hHolders⟩ := List.exists_cons_of_ne_nil (h.holders_ne_nil hFlight)
  obtain ⟨hb, hWrite, sub, hSub, hRange, hScan⟩ :=
    @scan_eq_retire params pkt data calls _ _ _ hHolders
      (hClear b rest hHolders)
  obtain ⟨hReturned, hRetired, hOne⟩ := @retire_ledger _ _ _ _ _ _ data _ hPackets h hSteady hb hSub
    hWrite hRange (h.sizes pkt (List.mem_append_left _ hFlight)) hCalls
  obtain ⟨_, _, _, hSteady'⟩ := @scan_runs params pkt data calls
    (fun call hCall => ⟨(hCalls call hCall).1, (hCalls call hCall).2.1⟩) s.pendingRequests s hSteady
  have hMore := scan_extends params pkt data calls s.pendingRequests s
  rw [hScan] at hSteady' hMore
  have hPkt' : (retire params b sub pkt data calls s).state.inFlight[index]? = some pkt := by
    obtain ⟨_, hSent⟩ := hMore
    rw [← hSent, List.getElem?_append_left hIndex]
    exact hPkt
  obtain ⟨_, _, hFinished, _⟩ :=
    finishResponse_runs hSteady' (Nat.lt_of_lt_of_le hIndex hMore.length_le) accepted
  obtain ⟨hLedger, hQuiet⟩ := finishResponse_keeps hRetired hPkt' hFinished
  have hCallback : memCallback params index data calls accepted s =
      (do
        retire params b sub pkt data calls
        finishResponse params index accepted) s := by
    rw [memCallback, Prog.get_bind, hPkt, ← hScan]
  rw [hCallback, Prog.bind_returned hReturned]
  refine ⟨?_, b, sub, hb, hSub, hWrite, hRange, hOne.append_quiet hQuiet⟩
  dsimp only
  rw [← List.append_assoc]
  exact hLedger

/-! ## Runs -/

/-- What the condition asks of a step: its accesses neither wrap around nor start inside a
block, and its response has one burst to go to. -/
def Step.Regular (params : NdpParams) (h : History) (step : Step) : Prop :=
  (∀ call ∈ step.accesses, call.Regular params) ∧
    match step with
    | .access _ => True
    | .sendEvent _ => True
    | .retry _ => True
    | .response index _ _ _ => ∀ pkt, h.engine.inFlight[index]? = some pkt →
        h.engine.Unambiguous pkt

def Step.Attributed (params : NdpParams) (h : History) (step : Step) : Prop :=
  match step with
  | .access _ => Retires (perform params step h.engine).trace [] []
  | .sendEvent _ => Retires (perform params step h.engine).trace [] []
  | .retry _ => Retires (perform params step h.engine).trace [] []
  | .response index data _ _ => ∃ pkt, h.engine.inFlight[index]? = some pkt ∧
      ∃ b sub, Retirement h.engine pkt data (perform params step h.engine).trace b sub

structure History.Sound (params : NdpParams) (h : History) : Prop where
  steady : h.engine.Steady params
  ledger : Ledger params [] h.log h.engine

theorem History.Sound.initial : History.Sound params {} where
  steady := .initial
  ledger := by constructor <;> simp [creations, deliveries, retiredOf, Engine.waits, Engine.owed,
    Engine.packets]

theorem perform_attributed (hPackets : params.BlockPackets) {h : History}
    (hSound : h.Sound params) {step : Step}
    (hLegal : Legal h step) (hRegular : step.Regular params h) :
    (h.next params step).Sound params ∧ step.Attributed params h := by
  obtain ⟨_, _, hReturned, hSteady⟩ := perform_runs hSound.steady hLegal
    fun call hCall => (hRegular.1 call hCall).1
  obtain ⟨hSizes, hEnabled⟩ := hLegal
  obtain ⟨hCalls, hClear⟩ := hRegular
  -- A step other than a response keeps the ledger and is quiet.
  have hQuiet (hKeeps : (perform params step).Follows (Keeps params)) :
      (h.next params step).Sound params ∧ Retires (perform params step h.engine).trace [] [] := by
    have hKept := hKeeps _ _ hReturned
    exact ⟨⟨hSteady, hKept.ledger _ _ hSound.ledger⟩, retires_of_quiet hKept.quiet⟩
  cases step with
  | access call =>
    have hCall := List.mem_singleton_self call
    exact hQuiet (accessMemory_keeps hPackets (hSizes call hCall).1 (hCalls call hCall))
  | sendEvent accepted =>
    exact hQuiet (.bind (.modify fun _ => keeps_of_same rfl rfl rfl) fun _ =>
      sendData_keeps accepted)
  | retry accepted =>
    exact hQuiet (.bind (.modify fun _ => keeps_of_same rfl rfl rfl) fun _ =>
      sendData_keeps accepted)
  | response index data calls accepted =>
    have hPkt := List.getElem?_eq_getElem hEnabled
    obtain ⟨hLedger, hRetirement⟩ := memCallback_retires hPackets hSound.ledger hSound.steady hPkt
      (hClear _ hPkt) (fun call hCall => ⟨(hSizes call hCall).1, hCalls call hCall⟩) data accepted
    exact ⟨⟨hSteady, hLedger⟩, _, hPkt, hRetirement⟩

structure History.Delivered (h : History) : Prop where
  once : (deliveries h.log).Nodup
  complete : ∀ b, .recvData b ∈ h.log → ∃ subs, .created b.id b.writeRequest subs ∈ h.log ∧
    ((retiredOf h.log b.id).map Prod.fst).Perm subs ∧
      (b.writeRequest = false → ∀ r ∈ retiredOf h.log b.id, ∀ i < r.1.size,
        b.data (r.1.offset + i) = r.2 i)
  outstanding : ∀ id ∈ creations h.log, id ∉ deliveries h.log →
    ∃ b ∈ h.engine.pendingRequests, b.id = id ∧ b.pendingSubRequests ≠ []

theorem History.Sound.delivered {h : History} (hSound : h.Sound params) : h.Delivered := by
  constructor
  · have hBoth := hSound.ledger.shared.nodup_iff.mpr hSound.ledger.once
    exact (List.nodup_append.mp hBoth).2.1
  · intro b hb
    obtain ⟨hEmpty, subs, hTracked⟩ := hSound.ledger.delivered b hb
    have hShared := hTracked.shared
    rw [hEmpty, List.nil_append] at hShared
    exact ⟨subs, hTracked.created, hShared, hTracked.buffer⟩
  · intro id hCreated hNot
    rcases List.mem_append.mp (hSound.ledger.shared.mem_iff.mpr hCreated) with hPending | hLogged
    · obtain ⟨b, hb, rfl⟩ := List.mem_map.mp hPending
      exact ⟨b, hb, rfl, (hSound.ledger.pending b hb).1⟩
    · exact absurd hLogged hNot

/-- In every run whose steps meet the condition, every response retires one sub-request of
one burst, and every burst is handed over once, when all its sub-requests are retired and with
their data. -/
theorem responses_attributed_of_regular (params : NdpParams) (hPackets : params.BlockPackets)
    (steps : List Step)
    (hRun : Admits (fun h step => Legal h step ∧ step.Regular params h) (History.next params) {}
      steps) :
    (steps.foldl (History.next params) {}).Delivered ∧
      ∀ before step after, steps = before ++ step :: after →
        step.Attributed params (before.foldl (History.next params) {}) := by
  have hInvariant {steps : List Step} (hRun : Admits
      (fun h step => Legal h step ∧ step.Regular params h) (History.next params) {} steps) :
      (steps.foldl (History.next params) {}).Sound params :=
    hRun.invariant .initial fun h step hSound hStep =>
      (perform_attributed hPackets hSound hStep.1 hStep.2).1
  refine ⟨(hInvariant hRun).delivered, ?_⟩
  rintro before step after rfl
  obtain ⟨hBefore, ⟨hLegal, hRegular⟩, _⟩ := Admits.append.mp hRun
  exact (perform_attributed hPackets (hInvariant hBefore) hLegal hRegular).2

theorem Engine.unambiguous_of {s : Engine} {pkt : Packet}
    (h : ((s.holders pkt).drop 1).isEmpty ∨
      ((s.holders pkt).head?.map fun b => b.pendingSubRequests.length) = some 1) :
    s.Unambiguous pkt := by
  intro b rest hHolders
  rw [hHolders] at h
  simpa [or_comm] using h

def overlappingReads : List Step :=
  [.access (readAccess 0 128), .access (readAccess 64 64), .response 0 (fun _ => 1) [] true,
    .sendEvent true, .response 0 (fun _ => 2) [] true]

theorem responses_attributed_of_regular_overlappingReads :
    (overlappingReads.foldl (History.next lineParams) {}).Delivered ∧
      ∀ before step after, overlappingReads = before ++ step :: after →
        step.Attributed lineParams (before.foldl (History.next lineParams) {}) := by
  apply responses_attributed_of_regular lineParams lineParams_blockPackets
  refine ⟨⟨⟨?_, trivial⟩, ?_, trivial⟩, ⟨⟨?_, trivial⟩, ?_, trivial⟩, ⟨⟨?_, ?_⟩, ?_, ?_⟩,
    ⟨⟨?_, ?_⟩, ?_, trivial⟩, ⟨⟨?_, ?_⟩, ?_, ?_⟩, trivial⟩
  · simp [Step.accesses, readAccess]
  · rintro call hCall
    rw [List.mem_singleton.mp hCall]
    decide
  · simp [Step.accesses, readAccess]
  · rintro call hCall
    rw [List.mem_singleton.mp hCall]
    decide
  · simp [Step.accesses]
  · decide
  · simp [Step.accesses]
  · rintro pkt hPkt
    obtain rfl := Option.some.inj hPkt
    exact Engine.unambiguous_of (.inl rfl)
  · simp [Step.accesses]
  · decide
  · simp [Step.accesses]
  · simp [Step.accesses]
  · decide
  · simp [Step.accesses]
  · rintro pkt hPkt
    obtain rfl := Option.some.inj hPkt
    exact Engine.unambiguous_of (.inr rfl)

def equalReads : List Step := [.access (readAccess 0 128), .access (readAccess 0 128)]

/-- The response to the first line of one read retires that of the other one as well. -/
theorem response_retires_twice :
    Admits Legal (History.next lineParams) {}
        (equalReads ++ [.response 0 (fun _ => 1) [] true]) ∧
      ¬(Step.response 0 (fun _ => 1) [] true).Attributed lineParams
        (equalReads.foldl (History.next lineParams) {}) := by
  constructor
  · refine ⟨⟨?_, trivial⟩, ⟨?_, trivial⟩, ⟨?_, ?_⟩, trivial⟩
    · simp [Step.accesses, readAccess]
    · simp [Step.accesses, readAccess]
    · simp [Step.accesses]
    · decide
  · rintro ⟨pkt, _, b, sub, hOne⟩
    have hTwo : (retirements (perform lineParams (.response 0 (fun _ => 1) [] true)
        (equalReads.foldl (History.next lineParams) {}).engine).trace).length = 2 := rfl
    rw [hOne.retires.retirements] at hTwo
    cases hTwo

end OpenNpux.Ndp
