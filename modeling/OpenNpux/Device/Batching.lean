import OpenNpux.Device.Batches

/-!
# Batches are invisible

In fast mode the cycles of a step and the batches of an event say how often the device
looks at the core, and nothing else. Every run is a number of batches of one cycle, with
what the device publishes once the core has stopped; two runs of the same core are both
such a run, and one of them goes on where the other has ended. The clock of the simulation
must not overflow in either of them.
-/

namespace OpenNpux.Device.NPUDevice

open Lib Bridge CoralVerilatedBackend

variable {C F : Type}

section Runs

variable (cfg : BridgeConfig F) (rtl : RtlModel C) (v : VerilatedParams) (p : NPUDeviceParams)

def fireTick (d : RtlDevice C) : Nat := d.curTick + (d.backendEvent.getD 0 - d.curTick)

def fire (cycles : Nat) : Prog (RtlDevice C) DeviceEvent Unit := do
  let d ← Prog.get
  call (rtlBackend cfg rtl v cycles) p ⟨d.backendEvent.getD 0 - d.curTick, .backendEvent⟩

def isScheduled (d : RtlDevice C) : Bool := d.backendEvent.isSome

/-- The first events of a run with `cycles` in a batch. -/
def batchedRun (cycles events : Nat) :
    Prog (RtlDevice C) DeviceEvent Unit :=
  Prog.repeatWhile isScheduled (fire cfg rtl v p cycles) events

/-- No event among the first `events` comes so late that its batches overflow. -/
def RunFits (cycles events : Nat) (d : RtlDevice C) : Prop :=
  ∀ e < events, ¬ Prog.Settled isScheduled (batchedRun cfg rtl v p cycles e d) →
    Fits v cycles (fireTick (batchedRun cfg rtl v p cycles e d).state)

def finish (cycles : Nat) : Prog (RtlDevice C) DeviceEvent Unit := do
  publish (rtlBackend cfg rtl v cycles) p
  syncBackendEvent (rtlBackend cfg rtl v cycles)
  checkDrainDone (rtlBackend cfg rtl v cycles)

/-- Up to `k` cycles of the core, each in a batch of its own, and the end of the event. -/
def cycleRun (k : Nat) : Prog (RtlDevice C) DeviceEvent Unit := do
  Prog.repeatWhile goesOn (oneBatch cfg rtl v p 1) k
  finish cfg rtl v p 1

variable {cfg rtl v p} {p' : NPUDeviceParams} {seen : List Observation}
  {d d' : RtlDevice C} {n : Nat}

theorem fire_eq (hFast : p.fastDma = true) (d : RtlDevice C) :
    fire cfg rtl v p n d =
      (processBatches (rtlBackend cfg rtl v n) p p.fastDmaEventBatch >>= fun _ =>
        finish cfg rtl v p n) { d with curTick := fireTick d, backendEvent := none } := by
  have hBudget : batchBudget p = p.fastDmaEventBatch := if_pos hFast
  rw [← hBudget]
  rfl

theorem finish_going (hGoing : goesOn d = true) :
    finish cfg rtl v p n d =
      ⟨some (), { d with backendEvent := some d.backend.pendingEventTick }, []⟩ := by
  have hPending : (rtlBackend cfg rtl v n).hasPendingEvent d.backend = true := hGoing
  have hPublish : publish (rtlBackend cfg rtl v n) p d = ⟨some (), d, []⟩ := by
    rw [publish, Prog.get_bind, if_neg (by simp [hPending])]
    rfl
  have hBusy : d.dmaQuiesced (rtlBackend cfg rtl v n) = false := by
    simp [dmaQuiesced, hPending]
  rw [finish, Prog.bind_returned (by rw [hPublish]), hPublish]
  simp only [syncBackendEvent, checkDrainDone, Prog.bind_apply, Prog.modify_apply, Prog.get_apply,
    hPending, if_true, List.nil_append]
  rw [if_neg fun h => absurd (hBusy.symm.trans h.2) (by decide)]
  rfl

theorem fire_scheduled (d : RtlDevice C) :
    Prog.Ensures (fun _ => True) (fire cfg rtl v p n) d fun _ d' => isScheduled d' = goesOn d' := by
  refine .get_bind (.modify_bind (.modify_bind ?_))
  apply processBackendEvent_ensures (I := fun _ => True) (J := fun _ => True)
  · exact .trivial
  · exact fun _ _ => .trivial
  · trivial
  · intro d' _
    have hEvent : (settled (rtlBackend cfg rtl v n) d').backendEvent =
      if goesOn d' = true then some d'.backend.pendingEventTick else none := rfl
    rw [isScheduled, hEvent]
    change _ = goesOn d'
    cases goesOn d' with
    | true => rfl
    | false => rfl

theorem finish_stopped (hStopped : goesOn d = false) :
    Prog.Ensures (fun _ => True) (finish cfg rtl v p n) d fun _ d' => goesOn d' = false := by
  apply Prog.Ensures.bind (Q := fun _ d' => goesOn d' = false)
  · obtain ⟨_, _, hRead, -⟩ := verilated_readLocalExtmem (Machine.bridge cfg rtl)
      { v with rtlCyclesPerEvent := n } (syncExtmemAddr p) p.fastDmaSyncSize d.backend
    apply publish_ensures (fun _ _ _ _ _ h => h) (permits_true p).windowOpen
    · exact fun _ _ _ _ => trivial
    · exact fun _ _ _ _ _ _ _ => trivial
    · exact hStopped
    · rw [rtlBackend, hRead]
      exact hStopped
  · exact fun _ d' h => settle_ensures trivial h

theorem cycleRun_going {k : Nat} (hReturned : (cycleRun cfg rtl v p k d).result = some ())
    (hGoing : goesOn (cycleRun cfg rtl v p k d).state = true) :
    (Prog.repeatWhile goesOn (oneBatch cfg rtl v p 1) k d).result = some () ∧
      goesOn (Prog.repeatWhile goesOn (oneBatch cfg rtl v p 1) k d).state = true ∧
      (cycleRun cfg rtl v p k d).state =
        { (Prog.repeatWhile goesOn (oneBatch cfg rtl v p 1) k d).state with
          backendEvent :=
            some (Prog.repeatWhile goesOn
              (oneBatch cfg rtl v p 1) k d).state.backend.pendingEventTick } := by
  obtain ⟨_, hCycles⟩ := Prog.returned_of_bind hReturned
  rw [cycleRun, Prog.bind_returned hCycles] at hReturned hGoing ⊢
  generalize (Prog.repeatWhile goesOn (oneBatch cfg rtl v p 1) k d).state = e at *
  cases hStop : goesOn e with
  | true => exact ⟨hCycles, rfl, by rw [finish_going hStop]⟩
  | false =>
    have hStopped := (finish_stopped hStop).2 () hReturned
    exact absurd (hGoing.symm.trans hStopped) (by decide)

theorem cycleRun_add {k : Nat}
    (h : (Prog.repeatWhile goesOn (oneBatch cfg rtl v p 1) k d).result = some ()) (k' : Nat) :
    Prog.Lockstep Eq (cycleRun cfg rtl v p (k + k')) d (cycleRun cfg rtl v p k')
      (Prog.repeatWhile goesOn (oneBatch cfg rtl v p 1) k d).state := by
  rw [Prog.Lockstep, cycleRun, Prog.bind_congr_at (Prog.repeatWhile_add k k' d), Prog.bind_assoc,
    Prog.bind_returned h]
  exact ⟨rfl, rfl⟩

theorem cycleRun_settled {k k' : Nat} (h : Prog.Settled goesOn (cycleRun cfg rtl v p k d))
    (hk : k ≤ k') : Prog.Lockstep Eq (cycleRun cfg rtl v p k') d (cycleRun cfg rtl v p k) d := by
  have hSettled : Prog.Settled goesOn (Prog.repeatWhile goesOn (oneBatch cfg rtl v p 1) k d) := by
    cases hResult : (Prog.repeatWhile goesOn (oneBatch cfg rtl v p 1) k d).result with
    | none => exact .inl hResult
    | some _ =>
      refine .inr ?_
      rw [cycleRun, Prog.Settled, Prog.bind_returned hResult] at h
      generalize (Prog.repeatWhile goesOn (oneBatch cfg rtl v p 1) k d).state = e at *
      cases hGoing : goesOn e with
      | false => rfl
      | true =>
        rw [finish_going hGoing] at h
        rcases h with hNone | hStop
        · cases hNone
        · exact hGoing.symm.trans hStop
  refine .bind (Prog.repeatWhile_settled hSettled hk) ?_
  rintro _ e _ rfl
  exact ⟨rfl, rfl⟩

theorem batchedRun_scheduled (hStart : isScheduled d = goesOn d) (events : Nat) :
    Prog.Ensures (fun _ => True) (batchedRun cfg rtl v p n events) d
      fun _ d' => isScheduled d' = goesOn d' :=
  .repeatWhile (fun d _ _ => fire_scheduled d) events hStart

theorem settled_iff (hStart : isScheduled d = goesOn d) {events k : Nat}
    (hRun : Prog.Lockstep (SameButTime (Fits v 1) (SameButDue seen))
      (batchedRun cfg rtl v p n events) d
      (cycleRun cfg rtl v p' k) d) :
    Prog.Settled isScheduled (batchedRun cfg rtl v p n events d) ↔
      Prog.Settled goesOn (cycleRun cfg rtl v p' k d) := by
  rw [Prog.Settled, Prog.Settled, ← hRun.1, ← hRun.2.goesOn]
  cases hResult : (batchedRun cfg rtl v p n events d).result with
  | none => exact iff_of_true (.inl rfl) (.inl rfl)
  | some _ => rw [(batchedRun_scheduled hStart events).2 () hResult]

variable (hPeriod : v.rtlTickPeriod ≠ 0)
include hPeriod

theorem finish_together {n' : Nat} (hParams : SameButBatch p p')
    (h : SameButTime (Fits v 1) (SameButDue seen) d d') :
    Prog.Lockstep (SameButTime (Fits v 1) (SameButDue seen)) (finish cfg rtl v p n) d
      (finish cfg rtl v p' n') d' :=
  .bind (SameButTime.publish (rtlBackend_together hPeriod seen n n') hParams h) fun _ _ _ h =>
    SameButTime.settle (rtlBackend_together hPeriod seen n n') h

omit hPeriod in
theorem cycles_tick (k : Nat) (d : RtlDevice C) :
    Prog.Ensures (fun _ => True) (Prog.repeatWhile goesOn (oneBatch cfg rtl v p 1) k) d
      fun _ d' => d'.curTick = d.curTick :=
  .repeatWhile (I := fun e => e.curTick = d.curTick)
    (fun e h _ => (oneBatch_tick e).mono fun _ _ hSame => hSame.trans h) k rfl

theorem cycleRun_history (hOne : Fits v 1 d.curTick) {k k' : Nat} (hk : k ≤ k') :
    (cycleRun cfg rtl v p k d).state.backend.model.history <+:
      (cycleRun cfg rtl v p k' d).state.backend.model.history := by
  by_cases hSettled : Prog.Settled goesOn (cycleRun cfg rtl v p k d)
  · rw [(cycleRun_settled hSettled hk).2]
  · obtain ⟨hRejected, hStopped⟩ := not_or.mp hSettled
    obtain ⟨_, hReturned⟩ := Option.ne_none_iff_exists'.mp hRejected
    obtain ⟨hCycles, -, hState⟩ := cycleRun_going hReturned (by simpa using hStopped)
    obtain ⟨j, rfl⟩ := Nat.exists_eq_add_of_le hk
    rw [(cycleRun_add hCycles j).2, hState]
    have hTick := (cycles_tick k d).2 () hCycles
    generalize (Prog.repeatWhile goesOn (oneBatch cfg rtl v p 1) k d).state = e at hTick ⊢
    have hSame : Prog.Lockstep (SameButTime (Fits v 1) (SameButDue e.backend.model.history))
        (cycleRun cfg rtl v p j) e (cycleRun cfg rtl v p j) e :=
      .bind (cycles_together hPeriod (.refl p) j (.self (hTick ▸ hOne) (List.prefix_refl _)))
        fun _ _ _ h => finish_together hPeriod (.refl p) h
    obtain ⟨_, -, -, hGrown⟩ := hSame.2.backend
    exact hGrown

variable (hFast : p.fastDma = true) (hBatch : p.fastDmaEventBatch ≠ 0) (hn : n ≠ 0)
  (hParams : SameButBatch p p')
include hFast hBatch hn hParams

theorem fire_cycles (hFits : Fits v n (fireTick d)) (hQuiet : Quiet d) (hGoing : goesOn d = true)
    (h : SameButTime (Fits v 1) (SameButDue seen) d d') :
    ∃ k, k ≠ 0 ∧ k ≤ p.fastDmaEventBatch * n ∧
      Prog.Lockstep (SameButTime (Fits v 1) (SameButDue seen)) (fire cfg rtl v p n) d
        (cycleRun cfg rtl v p' k) d' := by
  obtain ⟨_, tick, event, rfl, -, hTick, due, rfl, hDue, hSeen⟩ := h
  obtain ⟨k, hk, hLess, hBatches⟩ := @processBatches_cycles _ _ cfg rtl v p seen
    { d with curTick := fireTick d, backendEvent := none } n hPeriod hn hFast hFits
    p.fastDmaEventBatch hQuiet hGoing hSeen
  have hShift := @cycles_together _ _ cfg rtl v p p' seen
    { d with curTick := fireTick d, backendEvent := none } _ hPeriod hParams k
    ⟨_, tick, event, rfl, hFits.one hn, hTick, due, rfl, hDue, hSeen⟩
  exact ⟨k, hk hBatch, hLess, .congr (fire_eq hFast d) rfl
    (.bind (hBatches.trans hShift fun _ _ _ => SameButTime.after) fun _ _ _ h =>
      finish_together hPeriod hParams h)⟩

/-- A run is a number of cycles, at least one for each event. -/
theorem batchedRun_cycles (hOne : Fits v 1 d.curTick) (hQuiet : Quiet d) (hGoing : goesOn d = true)
    (hStart : isScheduled d = true) (hSeen : seen <+: d.backend.model.history) {events : Nat}
    (hFits : RunFits cfg rtl v p n events d) :
    ∃ k, events ≤ k ∧ k ≤ events * (p.fastDmaEventBatch * n) ∧
      Prog.Lockstep (SameButTime (Fits v 1) (SameButDue seen))
        (batchedRun cfg rtl v p n events) d (cycleRun cfg rtl v p' k) d := by
  induction events with
  | zero =>
    have hNothing : cycleRun cfg rtl v p' 0 d =
        ⟨some (), { d with backendEvent := some d.backend.pendingEventTick }, []⟩ :=
      finish_going hGoing
    refine ⟨0, Nat.le_refl 0, Nat.zero_le _, ?_⟩
    rw [Prog.Lockstep, hNothing]
    exact ⟨rfl, _, _, _, rfl, hOne, hOne, .self hSeen⟩
  | succ events ih =>
    obtain ⟨k, hLonger, hLess, hRun⟩ := ih fun e he => hFits e (Nat.lt_succ_of_lt he)
    have hSome : 0 < p.fastDmaEventBatch * n := Nat.mul_pos (by omega) (by omega)
    rw [Nat.succ_mul]
    by_cases hSettled : Prog.Settled isScheduled (batchedRun cfg rtl v p n events d)
    · have hStop := (settled_iff (hStart.trans hGoing.symm) hRun).mp hSettled
      obtain ⟨hResult, hState⟩ := Prog.repeatWhile_settled hSettled (Nat.le_succ events)
      obtain ⟨hResult', hState'⟩ := cycleRun_settled hStop (Nat.le_succ k)
      refine ⟨k + 1, by omega, by omega, hResult.trans (hRun.1.trans hResult'.symm), ?_⟩
      rw [hState']
      exact hState ▸ hRun.2
    · have hNext := hFits events (Nat.lt_succ_self events) hSettled
      obtain ⟨hRejected, hUnscheduled⟩ := not_or.mp hSettled
      obtain ⟨_, hReturned⟩ := Option.ne_none_iff_exists'.mp hRejected
      have hScheduled : isScheduled (batchedRun cfg rtl v p n events d).state = true := by
        simpa using hUnscheduled
      have hGoing' := ((batchedRun_scheduled (hStart.trans hGoing.symm) events).2
        () hReturned).symm.trans hScheduled
      obtain ⟨hCycles, hGoes, hState⟩ := cycleRun_going (hRun.1.symm.trans hReturned)
        (hRun.2.goesOn.symm.trans hGoing')
      have hSame : SameButTime (Fits v 1) (SameButDue seen)
          (batchedRun cfg rtl v p n events d).state
          (Prog.repeatWhile goesOn (oneBatch cfg rtl v p' 1) k d).state :=
        (hState ▸ hRun.2).unscheduled
      have hQuiet' : Quiet (Prog.repeatWhile goesOn (oneBatch cfg rtl v p' 1) k d).state := by
        have hFast' : p'.fastDma = true := by
          obtain ⟨_, rfl⟩ := hParams
          exact hFast
        exact (Prog.Ensures.repeatWhile (fun _ h _ => oneBatch_quiet hFast' h) k
          hQuiet).2 () hCycles
      obtain ⟨j, hj, hFewer, hFire⟩ := fire_cycles hPeriod hFast hBatch hn hParams hNext
        (hSame.quiet hQuiet') hGoing' hSame
      have hLast : Prog.Lockstep Eq (batchedRun cfg rtl v p n (events + 1)) d (fire cfg rtl v p n)
          (batchedRun cfg rtl v p n events d).state :=
        Prog.repeatWhile_snoc hReturned hScheduled
      obtain ⟨hResult, hEnd⟩ := cycleRun_add hCycles j
      refine ⟨k + j, by omega, by omega, hLast.1.trans (hFire.1.trans hResult.symm), ?_⟩
      rw [hLast.2, hEnd]
      exact hFire.2

end Runs

/-- The backend has been started, and nothing has happened since. -/
structure Started (d : RtlDevice C) : Prop extends Awake d where
  running : d.backend.running = true
  pending : d.backend.pendingEventTick ≠ 0
  idle : d.dmaActive = false

theorem Started.quiet {d : RtlDevice C} (h : Started d) : Quiet d :=
  ⟨h.idle, h.request.trans h.idle⟩

theorem Started.goesOn {d : RtlDevice C} (h : Started d) :
    NPUDevice.goesOn d = true :=
  bne_iff_ne.mpr h.pending

theorem Started.isScheduled {d : RtlDevice C} (h : Started d) :
    NPUDevice.isScheduled d = true := by
  have hPending : (d.backend.pendingEventTick != 0) = true := h.goesOn
  rw [NPUDevice.isScheduled, h.scheduled, if_pos hPending]
  rfl

/-- What the write of `RESET_CONTROL` that starts the backend leaves. -/
theorem write_started {cfg : BridgeConfig F} {rtl : RtlModel C} {v : VerilatedParams}
    {p : NPUDeviceParams} {d : RtlDevice C} {addr : Nat} {data : ByteMem}
    (hPeriod : v.rtlTickPeriod ≠ 0) (hFits : Fits v 1 d.curTick)
    (hAddr : isResetControl p addr 4 = true) (hValue : data.load 0 4 % 4 = 0) (h : Served d)
    (hIdle : d.dmaActive = false) (n : Nat) :
    Prog.Ensures (fun _ => True) (write (rtlBackend cfg rtl v n) p addr 4 data) d fun _ =>
      Started := by
  have hOffset : pioOffset p addr = resetControlOffset := by
    simpa [isResetControl] using hAddr
  apply write_ensures (I := fun d => Served d ∧ d.dmaActive = false ∧ Fits v 1 d.curTick)
  · exact fun d _ _ _ _ h =>
      ⟨⟨stable_served d _ _ _ _ h.toServed, h.scheduled⟩, h.running, h.pending, h.idle⟩
  · intro _
    apply syncHostToLocalExtmem_ensures trivial
      (fun d _ _ _ _ h => ⟨stable_served d _ _ _ _ h.1, h.2⟩)
    · exact fun _ _ _ _ _ => trivial
    · exact fun _ _ _ _ _ _ => trivial
    · exact ⟨h, hIdle, hFits⟩
    · intro data
      obtain ⟨_, model, _, hWrite, -⟩ := verilated_writeLocalExtmem (Machine.bridge cfg rtl)
        { v with rtlCyclesPerEvent := n } (syncExtmemAddr p) p.fastDmaSyncSize data d.backend
      rw [rtlBackend, hWrite]
      exact ⟨⟨h.request, h.inFlight⟩, hIdle, hFits⟩
  · exact ⟨h, hIdle, hFits⟩
  · exact fun _ _ _ _ => trivial
  · rintro d ⟨hServed, hFree, hFits⟩ _ _
    have hWrite := @write_resetControl _ (Machine.bridge cfg rtl) { v with rtlCyclesPerEvent := n }
      d.curTick data d.backend rfl
    have hState : ((rtlBackend cfg rtl v n).write d.curTick resetControlOffset 4 data
      d.backend).state =
        _ := congrArg Outcome.state hWrite
    rw [hOffset, hState]
    generalize hModel : { d.backend with
      model := ((Machine.bridge cfg rtl).mmioWrite resetControlOffset 4 data d.backend.model).1 } =
        b
    have hRequest : b.dmaRequestPending = d.dmaActive := by
      rw [← hModel]
      exact hServed.request
    have hRunning : (b.writeResetControl { v with rtlCyclesPerEvent := n } d.curTick
        (data.load 0 4)).running = true := by
      rw [writeResetControl, hValue]
      rfl
    have hPending : (b.writeResetControl { v with rtlCyclesPerEvent := n } d.curTick
        (data.load 0 4)).pendingEventTick ≠ 0 := by
      simp only [writeResetControl] at hRunning ⊢
      rw [hRunning, if_pos rfl]
      exact hFits.period_ne_zero hPeriod
    exact ⟨Served.rescheduled_awake ⟨hRequest, hServed.inFlight⟩, hRunning, hPending, hFree⟩

/-- The second outcome is the first at another time: the same observations, step result, cycle
count, EXTMEM and memory, and the same end. -/
def SameOutcome (o o' : Outcome (RtlDevice C) DeviceEvent Unit) :
    Prop :=
  o'.result = o.result ∧ ∃ tick event due, o'.state = { o.state with
    curTick := tick, backendEvent := event
    backend := { o.state.backend with pendingEventTick := due } }

theorem RunFits.tick {cfg : BridgeConfig F} {rtl : RtlModel C} {v : VerilatedParams}
    {p : NPUDeviceParams} {d : RtlDevice C} {cycles events : Nat}
    (h : RunFits cfg rtl v p cycles events d)
    (hCycles : cycles ≠ 0) (hSome : 0 < events) (hStart : isScheduled d = true) :
    Fits v 1 d.curTick := by
  have hRuns : ¬ Prog.Settled isScheduled (batchedRun cfg rtl v p cycles 0 d) := by
    rintro (hRejected | hStopped)
    · cases hRejected
    · exact absurd (hStart.symm.trans hStopped) (by decide)
  have hNow : Fits v cycles d.curTick :=
    (Nat.add_le_add_right (Nat.le_add_right _ _) _).trans_lt (h 0 hSome hRuns)
  exact hNow.one hCycles

/-- A run of enough events, none of them so late that a tick overflows, has made every observation
of a run with other batches, and has ended like it if that has ended. -/
theorem batching_invisible (cfg : BridgeConfig F) (rtl : RtlModel C) (v : VerilatedParams)
    (p : NPUDeviceParams) (hPeriod : v.rtlTickPeriod ≠ 0) (hFast : p.fastDma = true)
    (cycles cycles' batch batch' : Nat) (hCycles : cycles ≠ 0) (hCycles' : cycles' ≠ 0)
    (hBatch : batch ≠ 0) (hBatch' : batch' ≠ 0) (d : RtlDevice C) (hStart : Started d) :
    let run events := batchedRun cfg rtl v { p with fastDmaEventBatch := batch } cycles events d
    let run' events := batchedRun cfg rtl v { p with fastDmaEventBatch := batch' } cycles' events d
    (∀ events events', events * (batch * cycles) ≤ events' →
      RunFits cfg rtl v { p with fastDmaEventBatch := batch } cycles events d →
      RunFits cfg rtl v { p with fastDmaEventBatch := batch' } cycles' events' d →
      (run events).state.backend.model.history <+: (run' events').state.backend.model.history ∧
        (Prog.Settled isScheduled (run events) →
          Prog.Settled isScheduled (run' events') ∧ SameOutcome (run events) (run' events'))) ∧
    ∀ (m : Machine C) a b, a ≠ 0 → b ≠ 0 →
      m.step cfg rtl (a + b) = (m.step cfg rtl a).1.step cfg rtl b := by
  intro run run'
  have hScheduled := hStart.isScheduled.trans hStart.goesOn.symm
  refine ⟨fun events events' hEnough hFits hFits' => ?_, fun m a b ha hb => ?_⟩
  · rcases Nat.eq_zero_or_pos events' with rfl | hSome
    · obtain rfl : events = 0 := by
        by_contra hEvents
        have hMore := Nat.mul_pos (Nat.pos_of_ne_zero hEvents)
          (Nat.mul_pos (Nat.pos_of_ne_zero hBatch) (Nat.pos_of_ne_zero hCycles))
        omega
      have hNothing : ∀ q n, batchedRun cfg rtl v q n 0 d = ⟨some (), d, []⟩ := fun _ _ => rfl
      simp only [run, run', hNothing]
      exact ⟨List.prefix_refl _, fun hSettled => ⟨hSettled, rfl, _, _, _, rfl⟩⟩
    · have hOne := hFits'.tick hCycles' hSome hStart.isScheduled
      obtain ⟨k, -, hLess, hRun⟩ := @batchedRun_cycles _ _ cfg rtl v
        { p with fastDmaEventBatch := batch } p
          [] d cycles hPeriod hFast hBatch hCycles ⟨_, rfl⟩ hOne
        hStart.quiet hStart.goesOn hStart.isScheduled List.nil_prefix events hFits
      obtain ⟨k', hMore, -, hRun'⟩ := @batchedRun_cycles _ _ cfg rtl v
        { p with fastDmaEventBatch := batch' } p
          [] d cycles' hPeriod hFast hBatch' hCycles' ⟨_, rfl⟩
        hOne hStart.quiet hStart.goesOn hStart.isScheduled List.nil_prefix events' hFits'
      have hLonger : k ≤ k' := (hLess.trans hEnough).trans hMore
      constructor
      · have hGrown := @cycleRun_history _ _ cfg rtl v p d hPeriod hOne k k' hLonger
        obtain ⟨_, hBackend, -⟩ := hRun.2.backend
        obtain ⟨_, hBackend', -⟩ := hRun'.2.backend
        rw [hBackend, hBackend'] at hGrown
        exact hGrown
      · intro hSettled
        have hStop := (settled_iff hScheduled hRun).mp hSettled
        obtain ⟨hResult, hState⟩ := cycleRun_settled hStop hLonger
        have hSame := hRun.2.after (hState ▸ hRun'.2).symm
        refine ⟨(settled_iff hScheduled hRun').mpr ?_, ?_⟩
        · rw [Prog.Settled, hResult, hState]
          exact hStop
        · obtain ⟨_, tick, event, hEnd, -, -, due, hBackend, -⟩ := hSame
          refine ⟨hRun'.1.trans (hResult.trans hRun.1.symm), tick, event, due, ?_⟩
          rw [hEnd, hBackend]
  · exact (Machine.step_step m ha hb).symm

/-- A core that halts in its fourth clock and leaves its ports alone. -/
def fourClocks : RtlModel Nat where
  clock core _ := (core + 1,
    { readPins := ⟨false, {}, false⟩, writePins := ⟨false, {}, false, {}, false⟩
      halted := decide (4 ≤ core + 1) })
  startRead _ _ core := core
  startWrite _ _ _ core := core
  accessClocks _ _ := 1
  readData _ := fun _ => 0

def onePageParams (batch : Nat) : NPUDeviceParams :=
  { boardParams with
    dmaSharedSize := 4096, fastDmaSyncOffset := 0, fastDmaSyncSize := 0
    fastDmaEventBatch := batch }

def startedCore (period : Nat) : RtlDevice Nat where
  backend := {
    model := { core := 0 }, running := true, pendingEventTick := period, resetControl := 0 }
  backendEvent := some period
  memory := fun _ => 0

theorem startedCore_started {period : Nat} (hPeriod : period ≠ 0) :
    Started (startedCore period) where
  request := rfl
  inFlight := rfl
  scheduled := by
    have hPending : (period != 0) = true := bne_iff_ne.mpr hPeriod
    exact (if_pos hPending).symm
  running := rfl
  pending := hPeriod
  idle := rfl

theorem fourClocks_fits {cycles batch events : Nat}
    (h : ∀ e < events, fireTick (batchedRun plainConfig
      fourClocks verilatedDefaults (onePageParams batch) cycles e (startedCore 1000)).state ≤ 10000)
    (hCycles : cycles ≤ 4) :
    RunFits plainConfig fourClocks verilatedDefaults (onePageParams batch) cycles events
      (startedCore 1000) := by
  intro e he _
  have hTick := h e he
  have hPeriod : verilatedDefaults.rtlTickPeriod = 1000 := rfl
  rw [Fits, hPeriod]
  omega

/-- One batch of four cycles, and two events of two batches of one cycle. -/
theorem batching_invisible_fourClocks :
    Prog.Settled isScheduled (batchedRun plainConfig fourClocks verilatedDefaults
      (onePageParams 1) 4 1 (startedCore 1000)) ∧
    Prog.Settled isScheduled (batchedRun plainConfig fourClocks verilatedDefaults
      (onePageParams 2) 1 4 (startedCore 1000)) ∧
    SameOutcome
      (batchedRun plainConfig fourClocks verilatedDefaults (onePageParams 1) 4 1 (startedCore 1000))
      (batchedRun plainConfig fourClocks verilatedDefaults (onePageParams 2) 1 4
        (startedCore 1000)) := by
  have hSettled : Prog.Settled isScheduled (batchedRun plainConfig fourClocks verilatedDefaults
      (onePageParams 1) 4 1 (startedCore 1000)) := .inr rfl
  have hFits := @fourClocks_fits 4 1 1 (by decide +kernel) (by decide)
  have hFits' := @fourClocks_fits 1 2 4 (by decide +kernel) (by decide)
  exact ⟨hSettled, ((batching_invisible plainConfig fourClocks verilatedDefaults (onePageParams 1)
    (by decide) rfl 4 1 1 2 (by decide) (by decide) (by decide) (by decide) (startedCore 1000)
    (startedCore_started (by decide))).1 1 4 (by decide) hFits hFits').2 hSettled⟩

/-- With a period of 2^62 ticks a batch of four cycles ends the simulation, and four batches of one
cycle in the same event run the core to its halt. -/
theorem batch_delay_overflow :
    (batchedRun plainConfig fourClocks { verilatedDefaults with rtlTickPeriod := 2 ^ 62 }
      (onePageParams 1) 4 1 (startedCore (2 ^ 62))).result = none ∧
    (batchedRun plainConfig fourClocks { verilatedDefaults with rtlTickPeriod := 2 ^ 62 }
      (onePageParams 4) 1 1 (startedCore (2 ^ 62))).result = some () ∧
    isScheduled (batchedRun plainConfig fourClocks
      { verilatedDefaults with rtlTickPeriod := 2 ^ 62 } (onePageParams 4) 1 1
      (startedCore (2 ^ 62))).state = false := by
  refine ⟨?_, ?_, ?_⟩
  · rfl
  · rfl
  · rfl

end OpenNpux.Device.NPUDevice
