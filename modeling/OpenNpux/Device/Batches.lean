import OpenNpux.Device.Drain
import OpenNpux.Device.RtlMachine
import OpenNpux.Device.TimeShift
import OpenNpux.Lib.Repeat

/-!
# A batch is a number of cycles

A batch of a fast-mode event is a number of batches of one cycle, which end where the batch
ends: at its last cycle, at a request, which is served on the spot, at a fault or at the
halt. The time at which the next event is due is all that differs, and the batches of an
event add up. This is so as long as no tick overflows: one that wraps to zero would stop
the device.
-/

namespace OpenNpux.Device.NPUDevice

open Lib Bridge CoralVerilatedBackend

variable {C F : Type}

abbrev RtlDevice (C : Type) := NPUDevice (CoralVerilatedBackend (Machine C))

section Backend

variable (cfg : BridgeConfig F) (rtl : RtlModel C) (v : VerilatedParams)

/-- The Verilated backend that runs `cycles` of the core in a batch. -/
def rtlBackend (cycles : Nat) : CoralBackend (CoralVerilatedBackend (Machine C)) :=
  verilated (Machine.bridge cfg rtl) { v with rtlCyclesPerEvent := cycles }

/-- The next event of a batch of `cycles` at this tick does not overflow. -/
def Fits (cycles now : Nat) : Prop := now + cycles * v.rtlTickPeriod < 2 ^ 64

/-- Backends that differ in when their event is due, after the observations `seen`. -/
def SameButDue (seen : List Observation) (b b' : CoralVerilatedBackend (Machine C)) : Prop :=
  ∃ due, b' = { b with pendingEventTick := due } ∧ (b.pendingEventTick = 0 ↔ due = 0) ∧
    seen <+: b.model.history

variable {cfg rtl v} {seen : List Observation} {b b' : CoralVerilatedBackend (Machine C)}
  {now now' : Nat}

theorem Fits.mono {n m : Nat} (h : Fits v n now) (hLess : m ≤ n) : Fits v m now :=
  Nat.lt_of_le_of_lt (Nat.add_le_add_left (Nat.mul_le_mul_right _ hLess) now) h

theorem Fits.one {n : Nat} (h : Fits v n now) (hn : n ≠ 0) : Fits v 1 now :=
  h.mono (Nat.one_le_iff_ne_zero.mpr hn)

theorem Fits.period_ne_zero (h : Fits v 1 now) (hPeriod : v.rtlTickPeriod ≠ 0) :
    tickAfter now v.rtlTickPeriod ≠ 0 :=
  tickAfter_ne_zero hPeriod (by simpa [Fits] using h)

theorem SameButDue.self (h : seen <+: b.model.history) : SameButDue seen b b :=
  ⟨_, rfl, Iff.rfl, h⟩

theorem SameButDue.trans {b'' : CoralVerilatedBackend (Machine C)} (h : SameButDue seen b b')
    (h' : SameButDue seen b' b'') : SameButDue seen b b'' := by
  obtain ⟨due, rfl, hDue, hSeen⟩ := h
  obtain ⟨due', rfl, hDue', -⟩ := h'
  exact ⟨due', rfl, hDue.trans hDue', hSeen⟩

theorem fatalIf_together {c : Bool} (f : Fatal) (h : SameButDue seen b b') :
    Prog.Lockstep (SameButDue seen) (fatalIf c f) b (fatalIf c f) b' := by
  cases c with
  | true => exact ⟨rfl, h⟩
  | false => exact ⟨rfl, h⟩

theorem rtlBackend_together (hPeriod : v.rtlTickPeriod ≠ 0) (seen : List Observation) (n n' : Nat) :
    Together (Fits v 1) (SameButDue seen) (rtlBackend cfg rtl v n) (rtlBackend cfg rtl v n') where
  hasPendingEvent := by
    rintro b _ ⟨due, rfl, hDue, -⟩
    simp only [rtlBackend, verilated, bne, Bool.not_eq_eq_eq_not]
    rw [Bool.eq_iff_iff]
    simpa using hDue
  hasDmaRequest := by
    rintro b _ ⟨due, rfl, -, -⟩
    rfl
  dmaRequest := by
    rintro b _ ⟨due, rfl, hDue, hSeen⟩
    refine .get_bind (.bind (fatalIf_together _ ⟨_, rfl, hDue, hSeen⟩) fun _ _ _ h => .pure _ h)
  completeDma := by
    rintro b _ now now' data size error hFits hFits' ⟨due, rfl, hDue, hSeen⟩
    refine .get_bind (.bind (fatalIf_together _ ⟨_, rfl, hDue, hSeen⟩) fun _ _ _ h => ?_)
    refine .bind (fatalIf_together _ h) ?_
    rintro _ b' _ ⟨due, rfl, -, -⟩
    refine .modify ⟨_, rfl, ?_, hSeen.trans (List.prefix_append _ _)⟩
    simp only [completed]
    split
    · exact iff_of_false (hFits.period_ne_zero hPeriod) (hFits'.period_ne_zero hPeriod)
    · rfl
  hasLocalExtmem := fun _ => rfl
  readLocalExtmem := by
    rintro b _ addr size ⟨due, rfl, hDue, hSeen⟩
    refine .get_bind ?_
    dsimp only
    generalize (if v.localExtmemEnabled = true ∧ addr < 2 ^ 32 then
      (Machine.bridge cfg rtl).extmemRead addr size b.model else none) = bytes
    cases bytes with
    | none => exact ⟨rfl, _, rfl, hDue, hSeen⟩
    | some data => exact .pure _ ⟨_, rfl, hDue, hSeen⟩

theorem finishEvent_together {delay delay' : Nat} (hDelay : tickAfter now delay ≠ 0)
    (hDelay' : tickAfter now' delay' ≠ 0) (result : Int) (h : SameButDue seen b b') :
    Prog.Lockstep (SameButDue seen) (finishEvent (Machine.bridge cfg rtl) now delay result) b
      (finishEvent (Machine.bridge cfg rtl) now' delay' result) b' := by
  refine .bind (fatalIf_together _ h) fun _ _ _ h => .bind (fatalIf_together _ h) ?_
  rintro _ b _ ⟨due, rfl, hDue, hSeen⟩
  refine .ite Iff.rfl (.modify ⟨_, rfl, iff_of_false hDelay hDelay', hSeen⟩) (.ite Iff.rfl ?_ ?_)
  · refine .get_bind (.bind ?_ ?_)
    · dsimp only [reportedRequest]
      split
      · exact ⟨rfl, _, rfl, hDue, hSeen⟩
      · exact .bind (fatalIf_together _ ⟨_, rfl, hDue, hSeen⟩) fun _ _ _ h => .pure _ h
    · rintro request b _ ⟨due, rfl, hDue, hSeen⟩
      exact .modify ⟨_, rfl, Iff.rfl, hSeen⟩
  · exact .modify ⟨_, rfl, Iff.rfl, hSeen⟩

theorem finishEvent_goes {result : Int} (h : result = 3 ∨ result = 0) (now delay : Nat)
    (b : CoralVerilatedBackend (Machine C)) :
    finishEvent (Machine.bridge cfg rtl) now delay result b =
      ⟨some (), { b with pendingEventTick := tickAfter now delay }, []⟩ := by
  rcases h with rfl | rfl <;> rfl

theorem stepBatch_eq {M : Type} {br : CoralBridge M} {v : VerilatedParams} {now : Nat}
    {b : CoralVerilatedBackend M} (hForward : br.cycleCount b.model ≤
      br.cycleCount (batch br v b).1)
    (hFits : batchCycles br v b * v.rtlTickPeriod ≤ maxTick) :
    stepBatch br v now b = finishEvent br now (executedDelay v (batchCycles br v b))
      (batch br v b).2 { b with model := (batch br v b).1 } := by
  have hBackwards : decide (br.cycleCount (br.step v.rtlCyclesPerEvent b.model).1 <
      br.cycleCount b.model) = false :=
    decide_eq_false (Nat.not_lt.mpr hForward)
  have hOverflow : (batchCycles br v b != 0 &&
      decide (v.rtlTickPeriod > maxTick / batchCycles br v b)) = false := by
    rcases Nat.eq_zero_or_pos (batchCycles br v b) with hNone | hPositive
    · rw [hNone]
      rfl
    · have hQuotient := (Nat.le_div_iff_mul_le hPositive).mpr (Nat.mul_comm _ _ ▸ hFits)
      simp [Nat.not_lt.mpr hQuotient]
  unfold batchCycles batch at hOverflow
  simp only [stepBatch, Prog.get_bind, hBackwards, hOverflow]
  rfl

theorem processEvent_running {n : Nat} (hn : n ≠ 0) (hPeriod : v.rtlTickPeriod ≠ 0)
    (hFits : Fits v n now) (hRunning : b.running = true) :
    ∃ delay, tickAfter now delay ≠ 0 ∧ (rtlBackend cfg rtl v n).processEvent now b =
      finishEvent (Machine.bridge cfg rtl) now delay (b.model.step cfg rtl n).2
        { b with model := (b.model.step cfg rtl n).1 } := by
  obtain ⟨hForward, hAtMost⟩ := @Machine.step_cycles _ _ cfg rtl b.model n hn
  have hBatch : (rtlBackend cfg rtl v n).processEvent now b =
      stepBatch (Machine.bridge cfg rtl) { v with rtlCyclesPerEvent := n } now b := by
    simp only [rtlBackend, verilated, processEvent, Prog.get_bind, hRunning, Bool.not_true,
      Bool.false_eq_true, if_false]
  have hCycles : batchCycles (Machine.bridge cfg rtl) { v with rtlCyclesPerEvent := n } b ≤ n := by
    simp only [batchCycles, batch, Machine.bridge]
    omega
  have hDelay := executedDelay_le (v := { v with rtlCyclesPerEvent := n }) hCycles hn
  have hSome := period_le_executedDelay (v := { v with rtlCyclesPerEvent := n })
    (batchCycles (Machine.bridge cfg rtl) { v with rtlCyclesPerEvent := n } b)
  have hGuard : n * v.rtlTickPeriod ≤ maxTick := by
    unfold maxTick
    unfold Fits at hFits
    omega
  refine ⟨_, tickAfter_ne_zero (Nat.ne_of_gt ((Nat.pos_of_ne_zero hPeriod).trans_le hSome))
    ((Nat.add_le_add_left hDelay now).trans_lt hFits), ?_⟩
  rw [hBatch, stepBatch_eq hForward ((Nat.mul_le_mul_right _ hCycles).trans hGuard)]
  rfl

/-! ## One batch -/

theorem processEvent_idle (hIdle : b.running = false) (n now : Nat) :
    (rtlBackend cfg rtl v n).processEvent now b =
      ⟨some (), { b with pendingEventTick := 0 }, []⟩ := by
  simp only [rtlBackend, verilated, processEvent, Prog.get_bind]
  rw [if_pos (by simp [hIdle])]
  rfl

theorem processEvent_together (hPeriod : v.rtlTickPeriod ≠ 0) (hFits : Fits v 1 now)
    (hFits' : Fits v 1 now') (h : SameButDue seen b b') :
    Prog.Lockstep (SameButDue seen) ((rtlBackend cfg rtl v 1).processEvent now) b
      ((rtlBackend cfg rtl v 1).processEvent now') b' := by
  obtain ⟨due, rfl, hDue, hSeen⟩ := h
  by_cases hRunning : b.running = true
  · obtain ⟨delay, hDelay, hLeft⟩ :=
      @processEvent_running _ _ cfg rtl v b now 1 Nat.one_ne_zero hPeriod hFits hRunning
    obtain ⟨delay', hDelay', hRight⟩ := @processEvent_running _ _ cfg rtl v
      { b with pendingEventTick := due } now' 1 Nat.one_ne_zero hPeriod hFits' hRunning
    exact .congr hLeft hRight (finishEvent_together hDelay hDelay' _
      ⟨_, rfl, hDue, hSeen.trans (Machine.step_history b.model Nat.one_ne_zero)⟩)
  · have hIdle : b.running = false := by simpa using hRunning
    rw [Prog.Lockstep, processEvent_idle hIdle,
      processEvent_idle (b := { b with pendingEventTick := due }) hIdle]
    exact ⟨rfl, _, rfl, Iff.rfl, hSeen⟩

end Backend

section Batches

variable (cfg : BridgeConfig F) (rtl : RtlModel C) (v : VerilatedParams) (p : NPUDeviceParams)

/-- A batch of `cycles`, and the request that it raised. -/
def oneBatch (cycles : Nat) : Prog (RtlDevice C) DeviceEvent Unit := do
  onBackend ((rtlBackend cfg rtl v cycles).processEvent (← Prog.get).curTick)
  startBackendDma (rtlBackend cfg rtl v cycles) p

/-- What an event does after a batch, with `budget` batches left. -/
def moreBatches (cycles budget : Nat) :
    Prog (RtlDevice C) DeviceEvent Unit := do
  let d ← Prog.get
  if p.fastDma && !d.dmaActive && (rtlBackend cfg rtl v cycles).hasPendingEvent d.backend then
    Prog.modify fun d => { d with backendEvent := none }
    processBatches (rtlBackend cfg rtl v cycles) p budget

/-- Whether the backend has an event to come. -/
def goesOn (d : RtlDevice C) : Bool := d.backend.pendingEventTick != 0

def Quiet (d : RtlDevice C) : Prop :=
  d.dmaActive = false ∧ d.backend.dmaRequestPending = false

variable {cfg rtl v p} {p' : NPUDeviceParams} {seen : List Observation}
  {d d' : RtlDevice C} {n : Nat}

theorem SameButTime.quiet (h : SameButTime (Fits v 1) (SameButDue seen) d d') (hQuiet : Quiet d') :
    Quiet d := by
  obtain ⟨_, tick, event, rfl, -, -, due, rfl, -, -⟩ := h
  exact hQuiet

theorem SameButTime.goesOn (h : SameButTime (Fits v 1) (SameButDue seen) d d') :
    goesOn d = goesOn d' := by
  obtain ⟨_, tick, event, rfl, -, -, due, rfl, hDue, -⟩ := h
  simp only [NPUDevice.goesOn, bne, Bool.not_eq_eq_eq_not]
  rw [Bool.eq_iff_iff]
  simpa using hDue

theorem SameButTime.after {d'' : RtlDevice C}
    (h : SameButTime (Fits v 1) (SameButDue seen) d d')
    (h' : SameButTime (Fits v 1) (SameButDue seen) d' d'') :
    SameButTime (Fits v 1) (SameButDue seen) d d'' :=
  h.trans (fun _ _ _ hFirst hSecond => hFirst.trans hSecond) h'

theorem SameButTime.symm (h : SameButTime (Fits v 1) (SameButDue seen) d d') :
    SameButTime (Fits v 1) (SameButDue seen) d' d := by
  obtain ⟨_, tick, event, rfl, hNow, hTick, due, rfl, hDue, hSeen⟩ := h
  exact ⟨_, d.curTick, d.backendEvent, rfl, hTick, hNow, d.backend.pendingEventTick, rfl, hDue.symm,
    hSeen⟩

theorem SameButTime.self (hFits : Fits v 1 d.curTick) (h : seen <+: d.backend.model.history) :
    SameButTime (Fits v 1) (SameButDue seen) d d :=
  ⟨_, _, _, rfl, hFits, hFits, .self h⟩

theorem SameButTime.unscheduled {event : Option Nat}
    (h : SameButTime (Fits v 1) (SameButDue seen) d { d' with backendEvent := event }) :
    SameButTime (Fits v 1) (SameButDue seen) d d' := by
  obtain ⟨_, -, -, hSeen⟩ := h.symm.backend
  exact h.after ⟨_, d'.curTick, d'.backendEvent, rfl, h.fits_right, h.fits_right, .self hSeen⟩

theorem oneBatch_quiet (hFast : p.fastDma = true) (hQuiet : Quiet d) :
    Prog.Ensures (fun _ => True) (oneBatch cfg rtl v p n) d fun _ => Quiet := by
  refine .get_bind (ensures_onBackend_bind (fun _ _ => trivial) fun _ hReturned => ?_)
  have hProcessed := (processEvent_ensures (Machine.bridge cfg rtl)
    { v with rtlCyclesPerEvent := n } d.curTick d.backend).2 () hReturned
  apply startBackendDma_ensures (permits_true p)
  · exact fun _ _ _ _ _ h => h
  · rintro (hActive | hNone)
    · exact absurd (hActive.symm.trans hQuiet.1) (by decide)
    · exact ⟨hQuiet.1, hNone⟩
  · exact fun b _ _ hReleased => ⟨hQuiet.1, hReleased⟩
  · exact fun b _ _ _ hReleased => ⟨hQuiet.1, hReleased⟩
  · intro _ hTiming
    rw [hFast] at hTiming
    cases hTiming

theorem oneBatch_tick (d : RtlDevice C) :
    Prog.Ensures (fun _ => True) (oneBatch cfg rtl v p n) d fun _ d' => d'.curTick = d.curTick := by
  refine .get_bind (ensures_onBackend_bind (fun _ _ => trivial) fun _ _ => ?_)
  apply startBackendDma_ensures (permits_true p)
  · exact fun _ _ _ _ _ h => h
  · exact fun _ => rfl
  · exact fun _ _ _ _ => rfl
  · exact fun _ _ _ _ _ => rfl
  · exact fun _ _ _ => rfl

theorem startBackendDma_quiet (hQuiet : Quiet d) :
    startBackendDma (rtlBackend cfg rtl v n) p d = ⟨some (), d, []⟩ := by
  have hNone : ¬(d.dmaActive = false ∧
      (rtlBackend cfg rtl v n).hasDmaRequest d.backend = true) := by
    rintro ⟨-, hRequest⟩
    exact absurd (hQuiet.2.symm.trans hRequest) (by decide)
  rw [startBackendDma, Prog.get_bind, if_neg hNone]
  rfl

theorem oneBatch_returned {b : CoralVerilatedBackend (Machine C)}
    (h : (rtlBackend cfg rtl v n).processEvent d.curTick d.backend = ⟨some (), b, []⟩) :
    oneBatch cfg rtl v p n d =
      startBackendDma (rtlBackend cfg rtl v n) p { d with backend := b } := by
  have hCall : onBackend ((rtlBackend cfg rtl v n).processEvent d.curTick) d =
      ⟨some (), { d with backend := b }, []⟩ := by
    rw [onBackend, h]
    rfl
  rw [oneBatch, Prog.get_bind, Prog.bind_returned (by rw [hCall]), hCall]
  rfl

variable (hPeriod : v.rtlTickPeriod ≠ 0)
include hPeriod

theorem oneBatch_of_event
    {S : CoralVerilatedBackend (Machine C) → CoralVerilatedBackend (Machine C) → Prop}
    {n' : Nat} (hParams : SameButBatch p p') (hEvent : Prog.Lockstep (SameButDue seen)
      ((rtlBackend cfg rtl v n).processEvent d.curTick) d.backend
      ((rtlBackend cfg rtl v n').processEvent d'.curTick) d'.backend)
    (h : SameButTime (Fits v 1) S d d') :
    Prog.Lockstep (SameButTime (Fits v 1) (SameButDue seen)) (oneBatch cfg rtl v p n) d
      (oneBatch cfg rtl v p' n') d' :=
  .get_bind (.bind (SameButTime.onBackend hEvent h) fun _ _ _ h =>
    SameButTime.startBackendDma (rtlBackend_together hPeriod seen n n') hParams h)

theorem oneBatch_together (hParams : SameButBatch p p')
    (h : SameButTime (Fits v 1) (SameButDue seen) d d') :
    Prog.Lockstep (SameButTime (Fits v 1) (SameButDue seen)) (oneBatch cfg rtl v p 1) d
      (oneBatch cfg rtl v p' 1) d' :=
  oneBatch_of_event hPeriod hParams
    (processEvent_together hPeriod h.fits_left h.fits_right h.backend) h

variable (hn : n ≠ 0)
include hn

theorem oneBatch_succ (hFits : Fits v (n + 1) d.curTick) (hQuiet : Quiet d)
    (hGoing : goesOn d = true) (hRunning : d.backend.running = true)
    (hGoes : (Machine.turn cfg rtl d.backend.model).handle.stopCode = none)
    (hSeen : seen <+: d.backend.model.history) :
    ∃ d', Quiet d' ∧ goesOn d' = true ∧ seen <+: d'.backend.model.history ∧ d'.curTick = d.curTick ∧
      oneBatch cfg rtl v p 1 d = ⟨some (), d', []⟩ ∧
      Prog.Lockstep (SameButTime (Fits v 1) (SameButDue seen)) (oneBatch cfg rtl v p (n + 1)) d
        (oneBatch cfg rtl v p n) d' := by
  have hOne : Fits v 1 d.curTick := hFits.one (Nat.succ_ne_zero n)
  obtain ⟨delay, hDelay, hFirst⟩ := @processEvent_running _ _ cfg rtl v d.backend _ 1
    Nat.one_ne_zero hPeriod hOne hRunning
  have hCode : (d.backend.model.step cfg rtl 1).2 = 3 ∨ (d.backend.model.step cfg rtl 1).2 = 0 := by
    rw [Machine.step_eq _ Nat.one_ne_zero, Function.iterate_one, Handle.returnCode, hGoes,
      Option.getD_none]
    split
    · exact .inl rfl
    · exact .inr rfl
  rw [finishEvent_goes hCode] at hFirst
  generalize hModel : (d.backend.model.step cfg rtl 1).1 = model at hFirst
  refine ⟨_, ?_, ?_, ?_, ?_, (oneBatch_returned hFirst).trans (startBackendDma_quiet ?_), ?_⟩
  · exact hQuiet
  · exact bne_iff_ne.mpr hDelay
  · rw [← hModel]
    exact hSeen.trans (Machine.step_history _ Nat.one_ne_zero)
  · rfl
  · exact hQuiet
  · have hRest : model.step cfg rtl n = d.backend.model.step cfg rtl (n + 1) := by
      rw [← hModel, Machine.step_step _ Nat.one_ne_zero hn, Nat.add_comm]
    obtain ⟨delay', hDelay', hWhole⟩ := @processEvent_running _ _ cfg rtl v d.backend _ (n + 1)
      (Nat.succ_ne_zero n) hPeriod hFits hRunning
    obtain ⟨delay'', hDelay'', hOthers⟩ := @processEvent_running _ _ cfg rtl v
      { d.backend with model, pendingEventTick := tickAfter d.curTick delay } _ n hn hPeriod
      (hFits.mono (Nat.le_succ n)) hRunning
    rw [hRest] at hOthers
    have hDue : d.backend.pendingEventTick ≠ 0 := by simpa [goesOn] using hGoing
    refine oneBatch_of_event (S := fun _ _ => True) hPeriod (.refl p) (.congr hWhole hOthers ?_)
      ⟨_, _, _, rfl, hOne, hOne, trivial⟩
    refine finishEvent_together hDelay' hDelay'' _ ⟨_, rfl, ?_, ?_⟩
    · exact iff_of_false hDue hDelay
    · exact hSeen.trans (Machine.step_history _ (Nat.succ_ne_zero n))

theorem oneBatch_first (hFits : Fits v n d.curTick)
    (hStops : d.backend.running = true →
      (Machine.turn cfg rtl d.backend.model).handle.stopCode ≠ none)
    (hSeen : seen <+: d.backend.model.history) :
    Prog.Lockstep (SameButTime (Fits v 1) (SameButDue seen)) (oneBatch cfg rtl v p n) d
      (oneBatch cfg rtl v p 1) d := by
  have hOne : Fits v 1 d.curTick := hFits.one hn
  refine oneBatch_of_event hPeriod (.refl p) ?_ (.self hOne hSeen)
  by_cases hRunning : d.backend.running = true
  · obtain ⟨delay, hDelay, hWhole⟩ := @processEvent_running _ _ cfg rtl v d.backend _ n hn hPeriod
      hFits hRunning
    obtain ⟨delay', hDelay', hFirst⟩ := @processEvent_running _ _ cfg rtl v d.backend _ 1
      Nat.one_ne_zero hPeriod hOne hRunning
    rw [Machine.step_stopped hn (hStops hRunning)] at hWhole
    exact .congr hWhole hFirst (finishEvent_together hDelay hDelay' _
      (.self (hSeen.trans (Machine.step_history _ Nat.one_ne_zero))))
  · have hIdle : d.backend.running = false := by simpa using hRunning
    rw [Prog.Lockstep, processEvent_idle hIdle, processEvent_idle hIdle]
    exact ⟨rfl, .self hSeen⟩

theorem oneBatch_cycles (hFits : Fits v n d.curTick) (hQuiet : Quiet d)
    (hGoing : goesOn d = true) (hSeen : seen <+: d.backend.model.history) :
    ∃ k, k ≠ 0 ∧ k ≤ n ∧ Prog.Lockstep (SameButTime (Fits v 1) (SameButDue seen))
      (oneBatch cfg rtl v p n) d (Prog.repeatWhile goesOn (oneBatch cfg rtl v p 1) k) d := by
  induction n generalizing d with
  | zero => exact absurd rfl hn
  | succ n ih =>
    by_cases hStops : d.backend.running = true →
        (Machine.turn cfg rtl d.backend.model).handle.stopCode ≠ none
    · exact ⟨1, by decide, by omega, .congr rfl (Prog.repeatWhile_one hGoing)
        (oneBatch_first hPeriod hn hFits hStops hSeen)⟩
    · obtain ⟨hRunning, hGoes⟩ := Classical.not_imp.mp hStops
      rcases Nat.eq_zero_or_pos n with rfl | hMore
      · exact ⟨1, by decide, by omega, .congr rfl (Prog.repeatWhile_one hGoing)
          (oneBatch_together hPeriod (.refl p) (.self hFits hSeen))⟩
      · obtain ⟨d', hQuiet', hGoing', hSeen', hTick, hFirst, hOthers⟩ :=
          @oneBatch_succ _ _ cfg rtl v p
          seen d n hPeriod (by omega) hFits hQuiet hGoing hRunning (not_not.mp hGoes) hSeen
        obtain ⟨k, hk, hLess, hCycles⟩ :=
          ih (by omega) (hTick ▸ hFits.mono (Nat.le_succ n)) hQuiet' hGoing' hSeen'
        have hTail : Prog.repeatWhile goesOn (oneBatch cfg rtl v p 1) (k + 1) d =
            Prog.repeatWhile goesOn (oneBatch cfg rtl v p 1) k d' := by
          rw [Prog.repeatWhile_succ hGoing, Prog.bind_returned (by rw [hFirst]), hFirst]
          rfl
        exact ⟨k + 1, Nat.succ_ne_zero k, Nat.succ_le_succ hLess, .congr rfl hTail
          (hOthers.trans hCycles fun _ _ _ => SameButTime.after)⟩

/-! ## One event -/

omit hPeriod hn in
theorem processBatches_succ (budget : Nat) :
    processBatches (rtlBackend cfg rtl v n) p (budget + 1) =
      oneBatch cfg rtl v p n >>= fun _ => moreBatches cfg rtl v p n budget := by
  rw [oneBatch, Prog.bind_assoc]
  simp only [Prog.bind_assoc]
  rfl

omit hPeriod hn in
theorem moreBatches_going (hFast : p.fastDma = true) (hQuiet : Quiet d) (hGoing : goesOn d = true)
    (budget : Nat) : moreBatches cfg rtl v p n budget d =
      processBatches (rtlBackend cfg rtl v n) p budget { d with backendEvent := none } := by
  have hTest : (p.fastDma && !d.dmaActive &&
      (rtlBackend cfg rtl v n).hasPendingEvent d.backend) = true := by
    rw [hFast, hQuiet.1]
    exact hGoing
  rw [moreBatches, Prog.get_bind, if_pos hTest]
  rfl

omit hPeriod hn in
theorem moreBatches_stopped (hStopped : goesOn d = false) (budget : Nat) :
    moreBatches cfg rtl v p n budget d = ⟨some (), d, []⟩ := by
  have hTest : ¬(p.fastDma && !d.dmaActive &&
      (rtlBackend cfg rtl v n).hasPendingEvent d.backend) = true := by
    have hPending : (rtlBackend cfg rtl v n).hasPendingEvent d.backend = false := hStopped
    simp [hPending]
  rw [moreBatches, Prog.get_bind, if_neg hTest]
  rfl

omit hn in
theorem cycles_together (hParams : SameButBatch p p') (k : Nat)
    (h : SameButTime (Fits v 1) (SameButDue seen) d d') :
    Prog.Lockstep (SameButTime (Fits v 1) (SameButDue seen))
      (Prog.repeatWhile goesOn (oneBatch cfg rtl v p 1) k) d
      (Prog.repeatWhile goesOn (oneBatch cfg rtl v p' 1) k) d' := by
  refine .repeatWhile ?_ ?_ k h
  · exact fun _ _ h => h.goesOn
  · exact fun _ _ h => oneBatch_together hPeriod hParams h

theorem processBatches_cycles (hFast : p.fastDma = true) (hFits : Fits v n d.curTick)
    (budget : Nat) (hQuiet : Quiet d) (hGoing : goesOn d = true)
    (hSeen : seen <+: d.backend.model.history) :
    ∃ k, (budget ≠ 0 → k ≠ 0) ∧ k ≤ budget * n ∧
      Prog.Lockstep (SameButTime (Fits v 1) (SameButDue seen))
        (processBatches (rtlBackend cfg rtl v n) p budget) d
        (Prog.repeatWhile goesOn (oneBatch cfg rtl v p 1) k) d := by
  have hOne : Fits v 1 d.curTick := hFits.one hn
  induction budget generalizing d with
  | zero =>
    exact ⟨0, fun h => absurd rfl h, Nat.zero_le _, .pure () (.self hOne hSeen)⟩
  | succ budget ih =>
    obtain ⟨k, hk, hLess, hBatch⟩ := @oneBatch_cycles _ _ cfg rtl v p seen d n hPeriod hn hFits
      hQuiet hGoing hSeen
    have hRest : ∀ e, (oneBatch cfg rtl v p n d).result = some () →
        SameButTime (Fits v 1) (SameButDue seen) (oneBatch cfg rtl v p n d).state e →
        ∃ k' ≤ budget * n, Prog.Lockstep (SameButTime (Fits v 1) (SameButDue seen))
          (moreBatches cfg rtl v p n budget) (oneBatch cfg rtl v p n d).state
          (Prog.repeatWhile goesOn (oneBatch cfg rtl v p 1) k') e := by
      intro e hReturned hSame
      have hQuiet' := (oneBatch_quiet hFast hQuiet).2 () hReturned
      have hTick := (oneBatch_tick d).2 () hReturned
      generalize (oneBatch cfg rtl v p n d).state = d' at hSame hQuiet' hTick ⊢
      cases hGoing' : goesOn d' with
      | false =>
        refine ⟨0, Nat.zero_le _, ?_⟩
        rw [Prog.Lockstep, moreBatches_stopped hGoing']
        exact ⟨rfl, hSame⟩
      | true =>
        obtain ⟨_, tick, event, rfl, hNow, hLater, due, rfl, hDue, hSeen'⟩ := hSame
        obtain ⟨k', -, hFewer, hBatches⟩ := ih (d := { d' with backendEvent := none })
          (hTick ▸ hFits) hQuiet' hGoing' hSeen' hNow
        have hShift := @cycles_together _ _ cfg rtl v p p seen { d' with backendEvent := none } _
          hPeriod (.refl p) k' ⟨_, tick, event, rfl, hNow, hLater, due, rfl, hDue, hSeen'⟩
        exact ⟨k', hFewer, .congr (moreBatches_going hFast hQuiet' hGoing' budget) rfl
          (hBatches.trans hShift fun _ _ _ => SameButTime.after)⟩
    rw [processBatches_succ]
    obtain ⟨k', hLonger, hLimit, hAll⟩ := hBatch.bind_repeatWhile hRest
    rw [Nat.succ_mul]
    exact ⟨k', fun _ => by omega, by omega, hAll⟩

end Batches

end OpenNpux.Device.NPUDevice
