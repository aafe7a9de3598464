import OpenNpux.Device.HostWindow

/-!
# No lost wakeup

Between calls the event of the device is scheduled exactly for the pending event of its
Verilated backend, and a request of the backend is one that the device is serving. Inside
a call the latter holds in a weaker form, since a request is raised before it is taken. As
long as no tick overflows, a running backend has something to wake it.
-/

namespace OpenNpux.Device.NPUDevice

open Lib Bridge CoralVerilatedBackend

variable {M : Type}

/-- What holds once a raised request has been taken. -/
structure Served (d : NPUDevice (CoralVerilatedBackend M)) : Prop where
  request : d.backend.dmaRequestPending = d.dmaActive
  inFlight : d.inFlight = d.dmaActive

/-- What holds between a batch and the start of its DMA. -/
structure Raised (d : NPUDevice (CoralVerilatedBackend M)) : Prop where
  request : d.dmaActive = true → d.backend.dmaRequestPending = true
  inFlight : d.inFlight = d.dmaActive

theorem Served.raised {d : NPUDevice (CoralVerilatedBackend M)} (h : Served d) : Raised d where
  request hActive := h.request.trans hActive
  inFlight := h.inFlight

theorem stable_served : Stable (Served (M := M)) :=
  fun _ _ _ _ _ h => ⟨h.request, h.inFlight⟩

def KeepsProtocol (e : DeviceEvent) : Prop := ∀ f, e = .fatal f → f.isDmaProtocol = false

theorem KeepsProtocol.of_fatal {f : Fatal} (h : f.isDmaProtocol = false) :
    KeepsProtocol (.fatal f) := by
  rintro _ ⟨⟩
  exact h

theorem keepsProtocol_drainDone : KeepsProtocol .drainDone := by
  rintro _ ⟨⟩

theorem keepsProtocol_access (command : MemCmd) (addr size : Nat) :
    KeepsProtocol (command.event addr size) := by
  rintro _ hFatal
  cases command <;> cases hFatal

theorem syncOpen_keepsProtocol (p : NPUDeviceParams) : SyncOpen p KeepsProtocol :=
  fun command _ _ _ _ => keepsProtocol_access command _ _

theorem windowOpen_keepsProtocol (p : NPUDeviceParams) : WindowOpen p KeepsProtocol where
  access command _ _ _ _ := keepsProtocol_access command _ _
  zeroBlockSize := .of_fatal rfl
  crossesPage := .of_fatal rfl

section Completions

variable {br : CoralBridge M} {v : VerilatedParams} {p : NPUDeviceParams}
  {d : NPUDevice (CoralVerilatedBackend M)}
  {post : Unit → NPUDevice (CoralVerilatedBackend M) → Prop}

theorem completeBackendDma_keepsProtocol (data : ByteMem) (hActive : d.dmaActive = true)
    (hRequest : d.backend.dmaRequestPending = true)
    (hPost : ∀ model, post () (settled (verilated br v) { d with
      backend := completed v d.curTick model d.backend, dmaActive := false
      dmaCompletions := d.dmaCompletions + 1 })) :
    Prog.Ensures KeepsProtocol (completeBackendDma (verilated br v) data) d post := by
  have hTaken : (verilated br v).dmaRequest d.backend =
      ⟨some d.backend.pendingDmaRequest, d.backend, []⟩ :=
    dmaRequest_pending hRequest
  apply Prog.Ensures.get_bind
  apply ensures_fatalIf_bind (by simp [hActive])
  intro _
  apply ensures_onBackend_bind (by simp [hTaken])
  intro request _
  rw [hTaken]
  apply Prog.Ensures.modify_bind
  apply Prog.Ensures.get_bind
  obtain ⟨hTrace, hState⟩ := completeDma_ensures br v d.curTick
    (some data) request.size false hRequest
  apply ensures_onBackend_bind
  · intro f hf
    rw [hTrace f hf]
    exact .of_fatal rfl
  intro _ hReturned
  obtain ⟨model, hModel⟩ := hState () hReturned
  have hBackend : ((verilated br v).completeDma d.curTick (some data) request.size false
      d.backend).state = completed v d.curTick model d.backend := hModel
  apply Prog.Ensures.modify_bind
  apply Prog.Ensures.get_bind
  apply ensures_fatalIf_bind
  · intro hRetained
    simp only [hBackend] at hRetained
    cases hRetained
  · intro _
    apply settle_ensures keepsProtocol_drainDone
    simp only [hBackend]
    exact hPost model

theorem completeBackendDmaError_keepsProtocol (hFree : d.dmaActive = false)
    (hRequest : d.backend.dmaRequestPending = true)
    (hPost : ∀ model, post () (settled (verilated br v) { d with
      backend := completed v d.curTick model d.backend, dmaErrors := d.dmaErrors + 1 })) :
    Prog.Ensures KeepsProtocol (completeBackendDmaError (verilated br v)) d post := by
  apply Prog.Ensures.get_bind
  apply ensures_fatalIf_bind (by simp [hFree])
  intro _
  apply Prog.Ensures.get_bind
  apply ensures_fatalIf_bind
  · intro hNone
    simp [verilated, hRequest] at hNone
  intro _
  apply Prog.Ensures.get_bind
  obtain ⟨hTrace, hState⟩ := completeDma_ensures br v d.curTick none 0 true hRequest
  apply ensures_onBackend_bind
  · intro f hf
    rw [hTrace f hf]
    exact .of_fatal rfl
  intro _ hReturned
  obtain ⟨model, hModel⟩ := hState () hReturned
  have hBackend : ((verilated br v).completeDma d.curTick none 0 true d.backend).state =
      completed v d.curTick model d.backend := hModel
  apply Prog.Ensures.modify_bind
  apply Prog.Ensures.get_bind
  apply ensures_fatalIf_bind
  · intro hRetained
    simp only [hBackend] at hRetained
    cases hRetained
  · intro _
    apply settle_ensures keepsProtocol_drainDone
    simp only [hBackend]
    exact hPost model

/-- What holds whenever an entry point of the device has returned. -/
structure Awake (d : NPUDevice (CoralVerilatedBackend M)) : Prop extends Served d where
  scheduled : d.backendEvent =
    if d.backend.pendingEventTick != 0 then some d.backend.pendingEventTick else none

theorem Served.settled_awake (h : Served d) : Awake (settled (verilated br v) d) :=
  ⟨⟨h.request, h.inFlight⟩, rfl⟩

theorem Served.rescheduled_awake (h : Served d) : Awake (rescheduled (verilated br v) d) :=
  ⟨⟨h.request, h.inFlight⟩, rfl⟩

theorem served_completed (model : M) {b : CoralVerilatedBackend M} {now : Nat}
    (hBackend : d.backend = completed v now model b) (hFree : d.dmaActive = false)
    (hFlight : d.inFlight = false) : Served d where
  request := by
    rw [hBackend, hFree]
    rfl
  inFlight := hFlight.trans hFree.symm

end Completions

section Calls

variable {br : CoralBridge M} {v : VerilatedParams} {p : NPUDeviceParams}
  {d : NPUDevice (CoralVerilatedBackend M)}

theorem raised_processEvent (h : Served d) {b : CoralVerilatedBackend M} {now : Nat}
    (hProcessed : Processed br v now d.backend b) : Raised { d with backend := b } := by
  cases hProcessed with
  | idle => exact ⟨h.raised.request, h.inFlight⟩
  | proceeds => exact ⟨h.raised.request, h.inFlight⟩
  | waits => exact ⟨fun _ => rfl, h.inFlight⟩
  | halts => exact ⟨h.raised.request, h.inFlight⟩

theorem startBackendDma_served (h : Raised d) :
    Prog.Ensures KeepsProtocol (startBackendDma (verilated br v) p) d fun _ => Served := by
  apply Prog.Ensures.get_bind
  apply Prog.Ensures.ite
  · rintro ⟨hFree, hRequest : d.backend.dmaRequestPending = true⟩
    have hFlight : d.inFlight = false := h.inFlight.trans hFree
    have hTaken : (verilated br v).dmaRequest d.backend =
      ⟨some d.backend.pendingDmaRequest, d.backend, []⟩ := dmaRequest_pending hRequest
    apply ensures_onBackend_bind (by simp [hTaken])
    intro request _
    rw [hTaken]
    apply Prog.Ensures.ite
    · intro hWindow
      apply Prog.Ensures.modify_bind
      apply Prog.Ensures.ite
      · intro hFast
        apply Prog.Ensures.bind (fastDmaAccess_ensures (stable_sameControl _)
          (windowOpen_keepsProtocol p) request _ _ (.refl _))
        rintro data _ ⟨memory, cache, valid, dirty, rfl⟩
        apply completeBackendDma_keepsProtocol data
        · rfl
        · exact hRequest
        · intro model
          apply Awake.toServed
          apply Served.settled_awake
          exact served_completed model rfl rfl hFlight
      · intro _
        apply Prog.Ensures.emit_bind
        · cases request.type <;> rintro _ ⟨⟩
        · exact .modify ⟨hRequest, rfl⟩
    · intro _
      apply Prog.Ensures.emit_bind (by rintro _ ⟨⟩)
      apply completeBackendDmaError_keepsProtocol
      · exact hFree
      · exact hRequest
      · intro model
        apply Awake.toServed
        apply Served.settled_awake
        exact served_completed model rfl hFree hFlight
  · intro hNone
    apply Prog.Ensures.pure
    have hRequest : d.backend.dmaRequestPending = d.dmaActive := by
      cases hActive : d.dmaActive with
      | true => exact h.request hActive
      | false => simpa [hActive, verilated] using hNone
    exact ⟨hRequest, h.inFlight⟩

theorem Served.withModel (h : Served d) (model : M) :
    Served { d with backend := { d.backend with model } } :=
  ⟨h.request, h.inFlight⟩

theorem processBackendEvent_awake (h : Served d) :
    Prog.Ensures KeepsProtocol (processBackendEvent (verilated br v) p) d fun _ => Awake := by
  apply processBackendEvent_ensures (I := Served) (J := Served)
  · apply processBatches_ensures (K := Raised)
    · intro d _ f hf
      exact .of_fatal ((processEvent_ensures br v d.curTick d.backend).1 f hf)
    · intro d h hReturned
      exact raised_processEvent h ((processEvent_ensures br v d.curTick d.backend).2 _ hReturned)
    · exact fun d h => startBackendDma_served h
    · exact fun d h => ⟨h.request, h.inFlight⟩
    · exact h
  · intro d h
    apply publish_ensures stable_served (windowOpen_keepsProtocol p)
    · intro addr size f hf
      obtain ⟨_, _, hRead, hTrace⟩ := verilated_readLocalExtmem br v addr size d.backend
      rw [hRead] at hf
      exact .of_fatal (hTrace f hf ▸ rfl)
    · exact fun _ _ => syncOpen_keepsProtocol p
    · exact h
    · obtain ⟨_, _, hRead, _⟩ := verilated_readLocalExtmem br v
        (syncExtmemAddr p) p.fastDmaSyncSize d.backend
      rw [hRead]
      exact ⟨h.request, h.inFlight⟩
  · exact keepsProtocol_drainDone
  · exact fun d h => h.settled_awake

theorem write_awake (addr size : Nat) (data : ByteMem) (h : Served d) :
    Prog.Ensures KeepsProtocol (write (verilated br v) p addr size data) d fun _ => Awake := by
  apply write_ensures (I := Served)
  · exact fun d _ _ _ _ h => ⟨stable_served d _ _ _ _ h.toServed, h.scheduled⟩
  · intro hFast
    apply syncHostToLocalExtmem_ensures (.of_fatal rfl) stable_served
    · intro addr size data f hf
      obtain ⟨_, _, _, hWrite, hTrace⟩ := verilated_writeLocalExtmem br v addr size data d.backend
      rw [hWrite] at hf
      exact .of_fatal (hTrace f hf ▸ rfl)
    · exact fun _ => syncOpen_keepsProtocol p
    · exact h
    · intro data
      obtain ⟨_, model, _, hWrite, _⟩ :=
        verilated_writeLocalExtmem br v (syncExtmemAddr p) p.fastDmaSyncSize data d.backend
      rw [hWrite]
      exact ⟨h.request, h.inFlight⟩
  · exact h
  · intro d _ f hf
    obtain ⟨_, ⟨_, hWrite⟩ | ⟨_, hWrite⟩⟩ :=
      verilated_write br v d.curTick (pioOffset p addr) size data d.backend
    all_goals
      rw [hWrite] at hf
      cases hf
  · intro d h _ _
    obtain ⟨model, ⟨_, hWrite⟩ | ⟨_, hWrite⟩⟩ :=
      verilated_write br v d.curTick (pioOffset p addr) size data d.backend
    · rw [hWrite]
      exact (h.withModel model).rescheduled_awake
    · rw [hWrite]
      exact Served.rescheduled_awake ⟨h.request, h.inFlight⟩

theorem enter_awake (entry : Entry)
    (hCallback : ∀ data, entry = .dmaCallback data → d.inFlight = true) (h : Awake d) :
    Prog.Ensures KeepsProtocol (enter (verilated br v) p entry) d fun _ => Awake := by
  cases entry with
  | read addr size =>
    obtain ⟨_, model, hRead⟩ := verilated_read br v (pioOffset p addr) size d.backend
    apply Prog.Ensures.bind (Q := fun _ => Awake)
    · apply read_ensures
      · simp [hRead]
      · exact fun _ _ _ => h.rescheduled_awake
      · intro _ _
        rw [hRead]
        exact (h.withModel model).rescheduled_awake
    · exact fun _ _ hAwake => .pure hAwake
  | write addr size data =>
    apply Prog.Ensures.bind (write_awake addr size data h.toServed)
    exact fun _ _ hAwake => .pure hAwake
  | backendEvent =>
    apply Prog.Ensures.modify_bind
    exact processBackendEvent_awake ⟨h.request, h.inFlight⟩
  | dmaCallback data =>
    have hActive : d.dmaActive = true := h.inFlight.symm.trans (hCallback data rfl)
    apply Prog.Ensures.modify_bind
    apply completeBackendDma_keepsProtocol
    · exact hActive
    · exact h.request.trans hActive
    · intro model
      apply Served.settled_awake
      exact served_completed model rfl rfl rfl
  | drain => exact .modify ⟨⟨h.request, h.inFlight⟩, h.scheduled⟩
  | resume => exact .modify ⟨⟨h.request, h.inFlight⟩, h.scheduled⟩
  | hostStore addr size data => exact .modify ⟨⟨h.request, h.inFlight⟩, h.scheduled⟩

theorem call_awake {c : Call} (hEnabled : d.Enabled c) (h : Awake d) :
    Prog.Ensures KeepsProtocol (call (verilated br v) p c) d fun _ => Awake := by
  apply Prog.Ensures.modify_bind
  apply enter_awake c.entry
  · intro data hEntry
    rw [Enabled, hEntry] at hEnabled
    exact hEnabled.1
  · exact ⟨⟨h.request, h.inFlight⟩, h.scheduled⟩

theorem run_awake {cs : List Call}
    (hRun : Admits (Legal (verilated br v) p) (next (verilated br v) p) d cs) (h : Awake d) :
    Awake (cs.foldl (next (verilated br v) p) d) := by
  apply hRun.invariant h
  rintro d c hAwake ⟨hEnabled, hReturned⟩
  exact (call_awake hEnabled hAwake).2 () hReturned

end Calls

/-! ## What wakes a running backend -/

section Wakes

variable (br : CoralBridge M) (v : VerilatedParams)

/-- A running backend has an event to come or a request to be answered. -/
def Wakes (b : CoralVerilatedBackend M) : Prop :=
  b.running = true → b.pendingEventTick ≠ 0 ∨ b.dmaRequestPending = true

/-- The delay of no batch takes the next event past the last tick. -/
def TicksFit (now : Nat) : Prop :=
  ∀ b : CoralVerilatedBackend M, now + executedDelay v (batchCycles br v b) < 2 ^ 64

variable {br v} {now : Nat} {b : CoralVerilatedBackend M}

theorem period_le_executedDelay (cycles : Nat) : v.rtlTickPeriod ≤ executedDelay v cycles := by
  unfold executedDelay
  split
  · exact Nat.le_refl _
  · exact Nat.le_mul_of_pos_left _ (Nat.pos_of_ne_zero ‹_›)

theorem executedDelay_le {cycles limit : Nat} (hCycles : cycles ≤ limit) (hLimit : limit ≠ 0) :
    executedDelay v cycles ≤ limit * v.rtlTickPeriod := by
  unfold executedDelay
  split
  · exact Nat.le_mul_of_pos_left _ (Nat.pos_of_ne_zero hLimit)
  · exact Nat.mul_le_mul_right _ hCycles

theorem TicksFit.period (h : TicksFit br v now) (b : CoralVerilatedBackend M) :
    now + v.rtlTickPeriod < 2 ^ 64 :=
  Nat.lt_of_le_of_lt (Nat.add_le_add_left (period_le_executedDelay _) now) (h b)

theorem completeDma_state (data : Option ByteMem) (size : Nat) (error : Bool) :
    (completeDma br v now data size error b).state = b ∨
      ∃ model, (completeDma br v now data size error b).state = completed v now model b := by
  simp only [completeDma, Prog.get_bind]
  cases b.dmaRequestPending with
  | false => exact .inl rfl
  | true =>
    generalize br.dmaComplete _ error b.model = answer
    cases answer.2 != 0 with
    | true => exact .inl rfl
    | false => exact .inr ⟨answer.1, rfl⟩

theorem verilated_keeps_wakes (hPeriod : v.rtlTickPeriod ≠ 0) (hFits : TicksFit br v now) :
    Keeps (verilated br v) now Wakes where
  read offset size b h := by
    obtain ⟨_, _, hRead⟩ := verilated_read br v offset size b
    rw [hRead]
    exact h
  write offset size data b h := by
    obtain ⟨model, ⟨_, hWrite⟩ | ⟨_, hWrite⟩⟩ := verilated_write br v now offset size data b
    · rw [hWrite]
      exact h
    · rw [hWrite]
      intro hRunning
      simp only [writeResetControl] at hRunning ⊢
      rw [hRunning, if_pos rfl]
      exact .inl (tickAfter_ne_zero hPeriod (hFits.period b))
  processEvent b h hReturned := by
    have hProcessed : Processed br v now b ((verilated br v).processEvent now b).state :=
      (processEvent_ensures br v now b).2 () hReturned
    generalize ((verilated br v).processEvent now b).state = b' at hProcessed
    cases hProcessed with
    | idle hIdle => exact fun hRunning => absurd (hIdle.symm.trans hRunning) Bool.false_ne_true
    | proceeds =>
      have hDelay : executedDelay v (batchCycles br v b) ≠ 0 := by
        have hLess := period_le_executedDelay (v := v) (batchCycles br v b)
        omega
      exact fun _ => .inl (tickAfter_ne_zero hDelay (hFits b))
    | waits => exact fun _ => .inr rfl
    | halts => exact fun hRunning => by cases hRunning
  dmaRequest b h := by
    simp only [verilated, CoralVerilatedBackend.dmaRequest, Prog.get_bind]
    cases b.dmaRequestPending <;> exact h
  completeDma data size error b h := by
    rcases @completeDma_state _ br v now b data size error with
      hSame | ⟨model, hCompleted⟩
    · exact (congrArg Wakes hSame).mpr h
    · refine (congrArg Wakes hCompleted).mpr fun hRunning => .inl ?_
      simp only [completed] at hRunning ⊢
      rw [hRunning, if_pos rfl]
      exact tickAfter_ne_zero hPeriod (hFits.period b)
  readLocalExtmem addr size b h := by
    obtain ⟨_, _, hRead, _⟩ := verilated_readLocalExtmem br v addr size b
    rw [hRead]
    exact h
  writeLocalExtmem addr size data b h := by
    obtain ⟨_, _, _, hWrite, _⟩ := verilated_writeLocalExtmem br v addr size data b
    rw [hWrite]
    exact h

end Wakes

/-- The device as constructed, before its first call. -/
def constructed {B : Type} (backend : B) (memory : ByteMem) : NPUDevice B := { backend, memory }

theorem constructed_awake (model : M) (memory : ByteMem) : Awake (constructed { model } memory) :=
  ⟨⟨rfl, rfl⟩, rfl⟩

theorem no_lost_wakeup (br : CoralBridge M) (v : VerilatedParams) (p : NPUDeviceParams)
    (hBackend : v.Accepted) (model : M) (memory : ByteMem)
    (cs : List Call)
    (hRun : Admits (fun d c => Legal (verilated br v) p d c ∧ TicksFit br v (d.curTick + c.delay))
      (next (verilated br v) p) (constructed { model } memory) cs) :
    let be := verilated br v
    let d := cs.foldl (next be p) (constructed { model } memory)
    (d.backendEvent =
        if be.hasPendingEvent d.backend then some (be.nextEventTick d.backend) else none) ∧
      be.hasDmaRequest d.backend = d.dmaActive ∧
      (d.backend.running = true → be.hasPendingEvent d.backend = true ∨ d.dmaActive = true) ∧
      ∀ c, d.Enabled c → ∀ f, .fatal f ∈ (call be p c d).trace → f.isDmaProtocol = false := by
  have hAwake : Awake (cs.foldl (next (verilated br v) p) (constructed { model } memory)) :=
    run_awake (hRun.mono fun _ _ h => h.1) (constructed_awake model memory)
  have hWakes : Wakes (cs.foldl (next (verilated br v) p)
      (constructed { model } memory)).backend := by
    apply hRun.invariant (I := fun d => Wakes d.backend)
    · exact fun hRunning => by cases hRunning
    · rintro d c h ⟨⟨_, hReturned⟩, hFits⟩
      have hCall : Prog.Ensures (fun _ => True) (call (verilated br v) p c) d
          fun _ d' => Wakes d'.backend :=
        .modify_bind (enter_keeps (verilated_keeps_wakes hBackend.tickPeriod hFits) c.entry h)
      exact hCall.2 () hReturned
  refine ⟨hAwake.scheduled, hAwake.request, ?_, ?_⟩
  · intro hRunning
    rcases hWakes hRunning with hPending | hRequest
    · exact .inl (bne_iff_ne.mpr hPending)
    · exact .inr (hAwake.request.symm.trans hRequest)
  · intro c hEnabled f hf
    exact (call_awake hEnabled hAwake).1 _ hf f rfl

/-- A bridge state that knows how its next batches end. -/
structure Script where
  cycle : Nat := 0
  /-- The cycles of a batch, and the result of its step. -/
  batches : List (Nat × Int)

/-- A bridge that follows a script, halts after it and reports one request. -/
def scriptedBridge (request : DmaRequest) : CoralBridge Script where
  mmioRead _ _ m := (m, some fun _ => 0)
  mmioWrite _ _ _ m := (m, true)
  step cycles m :=
    match m.batches with
    | [] => (m, 1)
    | batch :: rest => (⟨m.cycle + min batch.1 cycles, rest⟩, batch.2)
  cycleCount m := m.cycle
  dmaRequestGet _ := some request
  dmaComplete _ _ m := (m, 0)
  extmemRead _ _ _ := some fun _ => 0
  extmemWrite _ _ _ m := some m

theorem scriptedBridge_ticksFit {request : DmaRequest} {v : VerilatedParams} {now : Nat}
    (hCycles : v.rtlCyclesPerEvent ≠ 0)
    (hFits : now + v.rtlCyclesPerEvent * v.rtlTickPeriod < 2 ^ 64) :
    TicksFit (scriptedBridge request) v now := by
  intro b
  have hBatch : batchCycles (scriptedBridge request) v b ≤ v.rtlCyclesPerEvent := by
    simp only [batchCycles, batch, scriptedBridge]
    split
    · exact (Nat.sub_self _).trans_le (Nat.zero_le _)
    · simp only
      omega
  exact Nat.lt_of_le_of_lt (Nat.add_le_add_left (executedDelay_le hBatch hCycles) now) hFits

/-- A read of sixteen bytes at the start of EXTMEM. -/
def firstRead : DmaRequest := { type := .read, addr := 0x20000000, size := 16, data := fun _ => 0 }

def timingParams : NPUDeviceParams := { boardParams with fastDma := false }

def resetControlWrite (value : Nat) : Entry :=
  .write (0x10000000 + resetControlOffset) 4 (ByteMem.bytesOf value)

/-- Start, an event that raises a request, its callback, and a reset. -/
def servedRead : List Call :=
  [⟨10, resetControlWrite 0⟩, ⟨1000, .backendEvent⟩, ⟨5, .dmaCallback fun _ => 0⟩,
    ⟨3, resetControlWrite 1⟩]

abbrev scriptedDevice (batches : List (Nat × Int)) : NPUDevice (CoralVerilatedBackend Script) :=
  constructed { model := { batches } } fun _ => 0

theorem servedRead_admitted :
    Admits (fun d c => Legal (verilated (scriptedBridge firstRead) verilatedDefaults) timingParams d
        c ∧ TicksFit (scriptedBridge firstRead) verilatedDefaults (d.curTick + c.delay))
      (next (verilated (scriptedBridge firstRead) verilatedDefaults) timingParams)
      (scriptedDevice [(1, 2)]) servedRead := by
  have hRun : Admits (fun d c =>
        Legal (verilated (scriptedBridge firstRead) verilatedDefaults) timingParams d c ∧
        d.curTick + c.delay + 1 * 1000 < 2 ^ 64)
      (next (verilated (scriptedBridge firstRead) verilatedDefaults) timingParams)
      (scriptedDevice [(1, 2)]) servedRead := by decide
  exact hRun.mono fun d c h => ⟨h.1, scriptedBridge_ticksFit (by decide) h.2⟩

theorem no_lost_wakeup_servedRead :
    let d := servedRead.foldl (next (verilated (scriptedBridge firstRead) verilatedDefaults)
      timingParams) (scriptedDevice [(1, 2)])
    (verilated (scriptedBridge firstRead) verilatedDefaults).hasDmaRequest d.backend =
      d.dmaActive :=
  (no_lost_wakeup (scriptedBridge firstRead) verilatedDefaults timingParams
    ⟨by decide, by decide⟩ _ _ servedRead servedRead_admitted).2.1

end OpenNpux.Device.NPUDevice
