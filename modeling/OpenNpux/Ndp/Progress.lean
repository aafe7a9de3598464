import OpenNpux.Lib.Lockstep
import OpenNpux.Ndp.Engine

/-!
# The engine keeps its limit and does not stall

One flag says that the engine is awake: a send event is scheduled, the port owes a retry,
or a call is under way. While it is asleep either nothing is queued or as many requests as
allowed are in flight, and their responses wake it up. Every run of `sendData` starts from
the same situation, whoever has called it.
-/

namespace OpenNpux.Ndp

open Lib

variable (params : NdpParams)

/-! ## Between two steps -/

structure Engine.Counted (s : Engine) : Prop where
  flying : s.flyReqs = s.inFlight.length
  limit : s.flyReqs ≤ params.maxReqs

structure Engine.Sending (s : Engine) : Prop extends s.Counted params where
  queued : s.pendingReqPackets ≠ []
  active : s.dmaActv = true
  unscheduled : s.scheduled = 0
  noRetry : s.retryOwed = false

/-- Awake, with one reason to be so, or asleep. -/
structure Engine.Steady (s : Engine) : Prop extends s.Counted params where
  awake : s.dmaActv = true → s.pendingReqPackets ≠ [] ∧
    (s.scheduled = 1 ∧ s.retryOwed = false ∨ s.scheduled = 0 ∧ s.retryOwed = true)
  asleep : s.dmaActv = false → s.scheduled = 0 ∧ s.retryOwed = false ∧
    (s.pendingReqPackets = [] ∨ s.flyReqs = params.maxReqs)

/-- `sendData` runs on a queue that is not empty, within the limit. -/
def Event.Orderly : Event → Prop
  | .sendData queued flying => queued ≠ 0 ∧ flying ≤ params.maxReqs
  | .created _ _ _ => True
  | .retired _ _ _ => True
  | .recvData _ => True

variable {params}

theorem sendData_runs {s : Engine} (h : s.Sending params) (accepted : Bool) :
    (sendData params accepted).Runs (Event.Orderly params) s fun _ s' => s'.Steady params := by
  obtain ⟨pkt, packets, hQueue⟩ := List.exists_cons_of_ne_nil h.queued
  have hEvent : (Event.sendData s.pendingReqPackets.length s.flyReqs).Orderly params :=
    ⟨by rw [hQueue]; exact Nat.succ_ne_zero _, h.limit⟩
  refine .get_bind (.emit_bind hEvent ?_)
  split
  · rename_i hFull
    refine .modify ⟨⟨h.flying, h.limit⟩, ?_, fun _ => ⟨h.unscheduled, h.noRetry, .inr hFull⟩⟩
    intro hNever
    cases hNever
  · rename_i hRoom
    have hLess : s.flyReqs + 1 ≤ params.maxReqs := by
      have hLimit := h.limit
      omega
    rw [hQueue]
    dsimp only
    cases accepted with
    | false =>
      refine .modify ⟨⟨h.flying, h.limit⟩, fun _ => ⟨h.queued, .inr ⟨h.unscheduled, rfl⟩⟩, ?_⟩
      intro hAsleep
      rw [h.active] at hAsleep
      cases hAsleep
    | true =>
      have hCounted : s.flyReqs + 1 = (s.inFlight ++ [pkt]).length := by
        rw [List.length_append, ← h.flying]
        rfl
      -- The engine goes to sleep with the last packet and is scheduled otherwise.
      cases packets with
      | nil =>
        refine .modify ⟨⟨hCounted, hLess⟩, ?_, fun _ => ⟨h.unscheduled, h.noRetry, .inl rfl⟩⟩
        intro hNever
        cases hNever
      | cons next rest =>
        refine .modify ⟨⟨hCounted, hLess⟩, fun _ => ?_, ?_⟩
        · exact ⟨List.cons_ne_nil _ _, .inl ⟨congrArg (· + 1) h.unscheduled, h.noRetry⟩⟩
        · intro hAsleep
          cases h.active.symm.trans hAsleep

/-! ## Each step -/

theorem subRequests_ne_nil {call : Access} (hSize : 0 < call.size) :
    (List.range (subRequestCount params call.size)).map
      (subRequestAt params call.addr call.size) ≠ [] := by
  have hCount : 0 < subRequestCount params call.size := by
    rw [lt_subRequestCount]
    omega
  rw [ne_eq, List.map_eq_nil_iff, List.range_eq_nil]
  omega

theorem accessMemory_runs {s : Engine} (h : s.Steady params) {call : Access}
    (hSize : 0 < call.size) (hFits : call.Fits params) :
    (accessMemory params call).Runs (Event.Orderly params) s fun _ s' => s'.Steady params := by
  have hSome := @subRequests_ne_nil params call hSize
  unfold accessMemory
  rw [split_eq params hFits.1]
  dsimp only
  rw [copies_of_fits hFits, Prog.require_true_bind]
  generalize (List.range (subRequestCount params call.size)).map
    (subRequestAt params call.addr call.size) = subRequests at hSome
  refine .get_bind (.emit_bind trivial (.modify_bind ?_))
  have hQueued (packets : List Packet) : packets ++ subRequests.map
      (fun sub => sub.packet params call.write call.data) ≠ [] := by
    simp [hSome]
  cases hActive : s.dmaActv with
  | true =>
    refine .pure ⟨⟨h.flying, h.limit⟩, fun _ => ⟨hQueued _, (h.awake hActive).2⟩, ?_⟩
    intro hAsleep
    cases hAsleep
  | false =>
    obtain ⟨hScheduled, hRetry, _⟩ := h.asleep hActive
    refine .modify_bind (sendData_runs ?_ _)
    exact ⟨⟨h.flying, h.limit⟩, hQueued _, rfl, hScheduled, hRetry⟩

theorem accessAll_runs {calls : List Access}
    (hCalls : ∀ call ∈ calls, 0 < call.size ∧ call.Fits params) {s : Engine}
    (h : s.Steady params) :
    (accessAll params calls).Runs (Event.Orderly params) s fun _ s' => s'.Steady params := by
  induction calls generalizing s with
  | nil => exact .pure h
  | cons call calls ih =>
    obtain ⟨⟨hSize, hFits⟩, hRest⟩ := List.forall_mem_cons.mp hCalls
    exact (accessMemory_runs h hSize hFits).bind fun _ _ hNext => ih hRest hNext

theorem Engine.Steady.bursts {s : Engine} (h : s.Steady params) (bursts : List BurstRequest) :
    ({ s with pendingRequests := bursts } : Engine).Steady params :=
  ⟨⟨h.flying, h.limit⟩, h.awake, h.asleep⟩

theorem scan_runs {pkt : Packet} {data : Nat → UInt8} {calls : List Access}
    (hCalls : ∀ call ∈ calls, 0 < call.size ∧ call.Fits params) (bursts : List BurstRequest)
    {s : Engine} (h : s.Steady params) :
    (scan params pkt data calls bursts).Runs (Event.Orderly params) s
      fun _ s' => s'.Steady params := by
  induction bursts generalizing s with
  | nil => exact .pure h
  | cons b bursts ih =>
    rw [scan]
    split
    · split
      · exact ih h
      · refine .modify_bind (.emit_bind trivial ?_)
        split
        · refine .emit_bind trivial ?_
          refine (accessAll_runs hCalls (h.bursts _)).bind fun _ s' h' => .modify (h'.bursts _)
        · exact ih (h.bursts _)
    · exact ih h

theorem finishResponse_runs {s : Engine} (h : s.Steady params) {index : Nat}
    (hIndex : index < s.inFlight.length) (accepted : Bool) :
    (finishResponse params index accepted).Runs (Event.Orderly params) s
      fun _ s' => s'.Steady params := by
  have hLimit := h.limit
  have hFlying : s.flyReqs - 1 = (s.inFlight.eraseIdx index).length := by
    rw [List.length_eraseIdx_of_lt hIndex, h.flying]
  refine .modify_bind (.get_bind ?_)
  cases hActive : s.dmaActv with
  | true =>
    refine .pure ⟨⟨hFlying, Nat.le_trans (Nat.sub_le _ _) hLimit⟩, fun _ => h.awake hActive, ?_⟩
    intro hAsleep
    cases hAsleep
  | false =>
    obtain ⟨hScheduled, hRetry, _⟩ := h.asleep hActive
    cases hQueue : s.pendingReqPackets with
    | nil =>
      refine .pure ⟨⟨hFlying, Nat.le_trans (Nat.sub_le _ _) hLimit⟩, ?_,
        fun _ => ⟨hScheduled, hRetry, .inl rfl⟩⟩
      intro hNever
      cases hNever
    | cons next rest =>
      refine .modify_bind (sendData_runs ?_ _)
      exact ⟨⟨hFlying, Nat.le_trans (Nat.sub_le _ _) hLimit⟩, List.cons_ne_nil _ _, rfl, hScheduled,
        hRetry⟩

/-! ## Packets in flight -/

def Engine.Extends (s s' : Engine) : Prop := s.inFlight <+: s'.inFlight

instance : IsPreorder Engine Engine.Extends where
  refl s := List.prefix_refl s.inFlight
  trans _ _ _ hFirst hSecond := hFirst.trans hSecond

section Extends

variable (params)

theorem sendData_extends (accepted : Bool) : (sendData params accepted).Grows Engine.Extends := by
  refine .get_bind fun s => .bind (.emit _) fun _ => .ite (.modify fun s => List.prefix_refl _) ?_
  split
  · exact .require _
  · split
    · exact .modify fun s => List.prefix_append _ _
    · exact .modify fun s => List.prefix_refl _

theorem accessMemory_extends (call : Access) :
    (accessMemory params call).Grows Engine.Extends := by
  unfold accessMemory
  split
  · exact .require _
  · refine .bind (.require _) fun _ => .get_bind fun s => .bind (.emit _) fun _ =>
      .bind (.modify fun s => List.prefix_refl _) fun _ => .ite (.pure _) ?_
    exact .bind (.modify fun s => List.prefix_refl _) fun _ => sendData_extends params _

theorem accessAll_extends (calls : List Access) :
    (accessAll params calls).Grows Engine.Extends := by
  induction calls with
  | nil => exact .pure _
  | cons call calls ih => exact .bind (accessMemory_extends params call) fun _ => ih

theorem scan_extends (pkt : Packet) (data : Nat → UInt8) (calls : List Access)
    (bursts : List BurstRequest) : (scan params pkt data calls bursts).Grows Engine.Extends := by
  induction bursts with
  | nil => exact .pure _
  | cons b bursts ih =>
    rw [scan]
    split
    · split
      · exact ih
      · refine .bind (.modify fun s => List.prefix_refl _) fun _ => .bind (.emit _) fun _ => ?_
        split
        · exact .bind (.emit _) fun _ => .bind (accessAll_extends params calls) fun _ =>
            .modify fun s => List.prefix_refl _
        · exact ih
    · exact ih

end Extends

/-! ## Runs -/

theorem memCallback_runs {s : Engine} (h : s.Steady params) {index : Nat}
    (hIndex : index < s.inFlight.length) (data : Nat → UInt8) {calls : List Access}
    (hCalls : ∀ call ∈ calls, 0 < call.size ∧ call.Fits params) (accepted : Bool) :
    (memCallback params index data calls accepted).Runs (Event.Orderly params) s
      fun _ s' => s'.Steady params := by
  refine .get_bind ?_
  rw [List.getElem?_eq_getElem hIndex]
  have hScan := @scan_runs params s.inFlight[index] data calls hCalls s.pendingRequests s h
  have hMore := scan_extends params s.inFlight[index] data calls s.pendingRequests s
  obtain ⟨hTrace, _, hResult, hSteady⟩ := hScan
  refine .bind (Q := fun _ s' => s'.Steady params ∧ s.Extends s')
    ⟨hTrace, _, hResult, hSteady, hMore⟩ ?_
  rintro _ s' ⟨hSteady', hMore'⟩
  exact finishResponse_runs hSteady' (Nat.lt_of_lt_of_le hIndex hMore'.length_le) accepted

def Step.Fits (params : NdpParams) (step : Step) : Prop :=
  ∀ call ∈ step.accesses, call.Fits params

theorem perform_runs {h : History} (hSteady : h.engine.Steady params) {step : Step}
    (hLegal : Legal h step) (hFits : step.Fits params) :
    (perform params step).Runs (Event.Orderly params) h.engine fun _ s' => s'.Steady params := by
  obtain ⟨hSizes, hEnabled⟩ := hLegal
  have hCalls : ∀ call ∈ step.accesses, 0 < call.size ∧ call.Fits params :=
    fun call hCall => ⟨(hSizes call hCall).1, hFits call hCall⟩
  cases step with
  | access call =>
    obtain ⟨hSize, hCall⟩ := hCalls call List.mem_cons_self
    exact accessMemory_runs hSteady hSize hCall
  | sendEvent accepted =>
    -- The event that runs was the only one, and the engine is awake.
    have hScheduled : 0 < h.engine.scheduled := hEnabled
    refine .modify_bind (sendData_runs ?_ accepted)
    cases hActive : h.engine.dmaActv with
    | false =>
      have hNone := (hSteady.asleep hActive).1
      omega
    | true =>
      obtain ⟨hQueue, ⟨hOne, hRetry⟩ | ⟨hNone, _⟩⟩ := hSteady.awake hActive
      · exact ⟨⟨hSteady.flying, hSteady.limit⟩, hQueue, rfl, by dsimp only; omega, hRetry⟩
      · omega
  | retry accepted =>
    have hOwed : h.engine.retryOwed = true := hEnabled
    refine .modify_bind (sendData_runs ?_ accepted)
    cases hActive : h.engine.dmaActv with
    | false => cases hOwed.symm.trans (hSteady.asleep hActive).2.1
    | true =>
      obtain ⟨hQueue, ⟨_, hNever⟩ | ⟨hNone, _⟩⟩ := hSteady.awake hActive
      · cases hOwed.symm.trans hNever
      · exact ⟨⟨hSteady.flying, hSteady.limit⟩, hQueue, rfl, hNone, rfl⟩
  | response index data calls accepted =>
      exact memCallback_runs hSteady hEnabled data hCalls accepted

/-- What holds of the engine and its events whenever no step is under way. -/
structure History.NeverStalls (params : NdpParams) (h : History) : Prop where
  flying : h.engine.flyReqs = h.engine.inFlight.length
  limit : h.engine.flyReqs ≤ params.maxReqs
  sends : ∀ queued flying, .sendData queued flying ∈ h.log → queued ≠ 0 ∧ flying ≤ params.maxReqs
  progress : h.engine.pendingReqPackets ≠ [] →
    0 < h.engine.scheduled ∨ h.engine.retryOwed = true ∨ h.engine.inFlight ≠ []

theorem Engine.Steady.progress {s : Engine} (h : s.Steady params)
    (hQueue : s.pendingReqPackets ≠ []) :
    0 < s.scheduled ∨ s.retryOwed = true ∨ s.inFlight ≠ [] := by
  cases hActive : s.dmaActv with
  | true =>
    obtain ⟨_, ⟨hOne, _⟩ | ⟨_, hOwed⟩⟩ := h.awake hActive
    · exact .inl (by omega)
    · exact .inr (.inl hOwed)
  | false =>
    obtain ⟨_, _, hEmpty | hFull⟩ := h.asleep hActive
    · exact absurd hEmpty hQueue
    · have hPos := params.reqsPos
      have hFlying := h.flying
      refine .inr (.inr fun hNone => ?_)
      rw [hNone, List.length_nil] at hFlying
      omega

theorem Engine.Steady.initial : Engine.Steady params {} := by
  refine ⟨⟨rfl, Nat.zero_le _⟩, ?_, fun _ => ⟨rfl, rfl, .inl rfl⟩⟩
  intro hAwake
  cases hAwake

/-- In every run whose accesses all end before the last address, the engine keeps its limit,
sends from a queue that is not empty, and always has something to wait for. -/
theorem neverStalls_of_fits (params : NdpParams) (steps : List Step)
    (hRun : Admits (fun h step => Legal h step ∧ step.Fits params) (History.next params) {} steps) :
    (steps.foldl (History.next params) {}).NeverStalls params := by
  have hInvariant : (steps.foldl (History.next params) {}).engine.Steady params ∧
      ∀ e ∈ (steps.foldl (History.next params) {}).log, e.Orderly params := by
    refine hRun.invariant (I := fun h => h.engine.Steady params ∧ ∀ e ∈ h.log, e.Orderly params)
      ⟨.initial, by simp⟩ ?_
    rintro h step ⟨hSteady, hLog⟩ ⟨hLegal, hFits⟩
    obtain ⟨hEvents, _, _, hSteady'⟩ := perform_runs hSteady hLegal hFits
    refine ⟨hSteady', fun e he => ?_⟩
    rcases List.mem_append.mp he with hOld | hNew
    · exact hLog e hOld
    · exact hEvents e hNew
  exact ⟨hInvariant.1.flying, hInvariant.1.limit, fun _ _ hSent => hInvariant.2 _ hSent,
    hInvariant.1.progress⟩

def lineParams : NdpParams where
  maxRSze := 64
  maxReqs := 1
  newPacket addr size := (addr &&& (2 ^ 64 - size), size)
  getOffset addr size := addr &&& (size - 1)
  rszePos := by decide
  reqsPos := by decide

theorem lineParams_blockPackets : lineParams.BlockPackets :=
    ⟨fun _ _ _ _ => rfl, fun _ _ _ _ => rfl⟩

def readAccess (addr size : Nat) : Access := ⟨addr, size, false, fun _ => 0, true⟩

def twoReads : List Step :=
  [.access (readAccess 0 64), .access (readAccess 64 64), .response 0 (fun _ => 1) [] true]

theorem neverStalls_of_fits_twoReads :
    (twoReads.foldl (History.next lineParams) {}).NeverStalls lineParams := by
  apply neverStalls_of_fits
  refine ⟨⟨⟨?_, trivial⟩, ?_⟩, ⟨⟨?_, trivial⟩, ?_⟩, ⟨⟨?_, ?_⟩, ?_⟩, trivial⟩
  · simp [Step.accesses, readAccess]
  · simp [Step.Fits, Step.accesses, readAccess, Access.Fits, subRequestCount, lineParams]
  · simp [Step.accesses, readAccess]
  · simp [Step.Fits, Step.accesses, readAccess, Access.Fits, subRequestCount, lineParams]
  · simp [Step.accesses]
  · decide
  · simp [Step.Fits, Step.accesses]

/-- A read whose last byte is the last address makes no packet, and is sent nevertheless. -/
theorem wrapping_access_sends_nothing :
    Admits Legal (History.next lineParams) {} [.access (readAccess (2 ^ 64 - 1) 1)] ∧
      ¬([Step.access (readAccess (2 ^ 64 - 1) 1)].foldl (History.next lineParams) {}).NeverStalls
        lineParams := by
  constructor
  · refine ⟨⟨?_, trivial⟩, trivial⟩
    simp [Step.accesses, readAccess]
  · intro hNever
    have hSent : Event.sendData 0 0 ∈ ([Step.access (readAccess (2 ^ 64 - 1) 1)].foldl
        (History.next lineParams) {}).log := List.mem_cons_of_mem _ List.mem_cons_self
    exact (hNever.sends 0 0 hSent).1 rfl

end OpenNpux.Ndp
