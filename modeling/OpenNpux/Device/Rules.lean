import OpenNpux.Device.Entry

/-!
# Rules for the functions of the shell

One rule for each function of the device, over the triple of the program logic. A
property of the device names the events it allows and the states it relates, and the
rules leave it only the cases in which the shell does something of its own.
-/

namespace OpenNpux.Device.NPUDevice

open Lib Bridge

/-! ## Backend calls -/

section Rules

variable {B α β : Type} {be : CoralBackend B} {p : NPUDeviceParams} {ok : DeviceEvent → Prop}
  {d : NPUDevice B}

theorem ensures_onBackend {callee : Prog B Fatal α} {post : α → NPUDevice B → Prop}
    (hTrace : ∀ f ∈ (callee d.backend).trace, ok (.fatal f))
    (hPost : ∀ a, (callee d.backend).result = some a →
      post a { d with backend := (callee d.backend).state }) :
    Prog.Ensures ok (onBackend callee) d post := by
  refine ⟨?_, hPost⟩
  intro e he
  obtain ⟨f, hf, rfl⟩ := List.mem_map.mp he
  exact hTrace f hf

theorem ensures_onBackend_bind {callee : Prog B Fatal α}
    {k : α → Prog (NPUDevice B) DeviceEvent β} {post : β → NPUDevice B → Prop}
    (hTrace : ∀ f ∈ (callee d.backend).trace, ok (.fatal f))
    (hRest : ∀ a, (callee d.backend).result = some a →
      Prog.Ensures ok (k a) { d with backend := (callee d.backend).state } post) :
    Prog.Ensures ok (onBackend callee >>= k) d post :=
  Prog.Ensures.bind (Q := fun a d' => (callee d.backend).result = some a ∧
      d' = { d with backend := (callee d.backend).state })
    (ensures_onBackend hTrace fun _ ha => ⟨ha, rfl⟩) fun a _ h => h.2 ▸ hRest a h.1

theorem ensures_fatalIf_bind {c : Bool} {f : Fatal} {k : Unit → Prog (NPUDevice B) DeviceEvent β}
    {post : β → NPUDevice B → Prop} (hFatal : c = true → ok (.fatal f))
    (hRest : c = false → Prog.Ensures ok (k ()) d post) :
    Prog.Ensures ok (deviceFatalIf c f >>= k) d post := by
  cases c with
  | true =>
    apply ensures_onBackend_bind
    · intro f' hf'
      rw [List.mem_singleton.mp hf']
      exact hFatal rfl
    · intro a ha
      cases ha
  | false => exact hRest rfl

/-! ## Host accesses -/

/-- A property that looks at neither the host memory nor the page cache. -/
def Stable (I : NPUDevice B → Prop) : Prop :=
  ∀ d memory cache valid dirty, I d → I { d with
    memory := memory, fastDmaCache := cache, fastDmaPageValid := valid, fastDmaPageDirty := dirty }

/-- The events allowed include every functional access inside the shared window. -/
structure WindowOpen (p : NPUDeviceParams) (ok : DeviceEvent → Prop) : Prop where
  access : ∀ (command : MemCmd) k n, 0 < n → k + n ≤ p.dmaSharedSize →
    ok (command.event ((p.dmaSharedBase + k) % 2 ^ 64) n)
  zeroBlockSize : ok (.fatal .zeroBlockSize)
  crossesPage : ok (.fatal .crossesPage)

section Host

variable {I : NPUDevice B → Prop} (hStable : Stable I)
include hStable

theorem functionalMemoryAccess_ensures {command : MemCmd} {addr size start : Nat} {buffer : ByteMem}
    (hOk : ok (command.event addr size)) (hI : I d) :
    Prog.Ensures ok (functionalMemoryAccess command addr size start buffer) d fun _ => I := by
  cases command with
  | readReq => exact .emit_bind hOk (.get_bind (.pure hI))
  | writeReq => exact .emit_bind hOk (.modify_bind (.pure (hStable d _ _ _ _ hI)))

theorem functionalMemoryLoop_ensures (hBlock : p.cacheBlockSize ≠ 0) {command : MemCmd}
    {addr size start : Nat} (hOk : ∀ k n, 0 < n → k + n ≤ size →
      ok (command.event ((addr + k) % 2 ^ 64) n))
    (fuel completed : Nat) (buffer : ByteMem) (hI : I d) :
    Prog.Ensures ok (functionalMemoryLoop p command addr size start fuel completed buffer) d
      fun _ => I := by
  induction fuel generalizing completed buffer d with
  | zero => exact .pure hI
  | succ fuel ih =>
    apply Prog.Ensures.ite
    · intro hMore
      have hChunk : 0 < p.cacheBlockSize - (addr + completed) % 2 ^ 64 % p.cacheBlockSize :=
        Nat.sub_pos_of_lt (Nat.mod_lt _ (Nat.pos_of_ne_zero hBlock))
      have hEvent := hOk completed
        (min (p.cacheBlockSize - (addr + completed) % 2 ^ 64 % p.cacheBlockSize) (size - completed))
        (Nat.lt_min.mpr ⟨hChunk, Nat.sub_pos_of_lt hMore⟩) (by omega)
      apply Prog.Ensures.bind (functionalMemoryAccess_ensures hStable hEvent hI)
      intro buffer' d' hI'
      exact ih _ buffer' hI'
    · exact fun _ => .pure hI

theorem functionalMemoryRange_ensures {command : MemCmd} {addr size start : Nat} {buffer : ByteMem}
    (hZero : ok (.fatal .zeroBlockSize)) (hOk : ∀ k n, 0 < n → k + n ≤ size →
      ok (command.event ((addr + k) % 2 ^ 64) n)) (hI : I d) :
    Prog.Ensures ok (functionalMemoryRange p command addr size start buffer) d fun _ => I := by
  apply ensures_fatalIf_bind
  · exact fun _ => hZero
  · intro hBlock
    exact functionalMemoryLoop_ensures hStable (by simpa using hBlock) hOk _ _ _ hI

variable (hOpen : WindowOpen p ok)
include hOpen

theorem windowRange_ensures {command : MemCmd} {offset size start : Nat} {buffer : ByteMem}
    (hRange : 0 < size → offset + size ≤ p.dmaSharedSize) (hI : I d) :
    Prog.Ensures ok (functionalMemoryRange p command
      ((p.dmaSharedBase + offset) % 2 ^ 64) size start buffer) d fun _ => I := by
  apply functionalMemoryRange_ensures hStable hOpen.zeroBlockSize _ hI
  intro k n hn hk
  have hSum : ((p.dmaSharedBase + offset) % 2 ^ 64 + k) % 2 ^ 64 =
      (p.dmaSharedBase + (offset + k)) % 2 ^ 64 := by
    rw [Nat.mod_add_mod, Nat.add_assoc]
  rw [hSum]
  exact hOpen.access command _ n hn (by omega)

omit hStable hOpen in
theorem page_in_window (page : Nat) (h : 0 < pageSize p page) :
    pageOffset page + pageSize p page ≤ p.dmaSharedSize := by
  have hCache : p.cacheSize ≤ p.dmaSharedSize := by
    unfold NPUDeviceParams.cacheSize
    split <;> omega
  unfold pageSize at *
  omega

theorem fillPage_ensures (page : Nat) (hI : I d) :
    Prog.Ensures ok (fillPage p page) d fun _ => I := by
  apply Prog.Ensures.get_bind
  apply Prog.Ensures.ite
  · intro _
    apply Prog.Ensures.bind (windowRange_ensures hStable hOpen (page_in_window page) hI)
    intro cache d' hI'
    exact .modify (hStable d' _ _ _ _ hI')
  · exact fun _ => .pure hI

theorem fastDmaAccess_ensures (request : CoralDmaRequest) (hostAddr : Nat) (data : ByteMem)
    (hI : I d) : Prog.Ensures ok (fastDmaAccess p request hostAddr data) d fun _ => I := by
  apply ensures_fatalIf_bind
  · exact fun _ => hOpen.crossesPage
  · intro _
    apply Prog.Ensures.bind (fillPage_ensures hStable hOpen _ hI)
    intro _ d' hI'
    cases request.type with
    | read => exact .get_bind (.pure hI')
    | write => exact .modify_bind (.pure (hStable d' _ _ _ _ hI'))

theorem flushFastDmaCache_ensures (hI : I d) :
    Prog.Ensures ok (flushFastDmaCache p) d fun _ => I := by
  apply Prog.Ensures.loop (I := fun _ _ => I) hI
  intro page _ _ d' hI'
  apply Prog.Ensures.get_bind
  apply Prog.Ensures.ite
  · intro _
    apply Prog.Ensures.bind (windowRange_ensures hStable hOpen (page_in_window page) hI')
    intro _ d'' hI''
    exact .modify (hStable d'' _ _ _ _ hI'')
  · exact fun _ => .pure hI'

end Host

/-! ## Completions -/

/-- The device once its event and its drain are up to date. -/
def settled (be : CoralBackend B) (d : NPUDevice B) : NPUDevice B :=
  { d with
    backendEvent := if be.hasPendingEvent d.backend then some (be.nextEventTick d.backend) else none
    drainState := if d.drainState = .draining ∧ d.dmaQuiesced be = true then .drained
      else d.drainState }

/-- The events allowed include all that the shell does inside its window, and every fatal. -/
structure Permits (p : NPUDeviceParams) (ok : DeviceEvent → Prop) : Prop where
  access : ∀ (command : MemCmd) k n, 0 < n → k + n ≤ p.dmaSharedSize →
    ok (command.event ((p.dmaSharedBase + k) % 2 ^ 64) n)
  dmaRead : ∀ request, p.inWindow request = true → ok (.dmaRead (p.hostAddr request) request.size)
  dmaWrite : ∀ request, p.inWindow request = true → ok (.dmaWrite (p.hostAddr request) request.size)
  rejected : ∀ request, p.inWindow request = false → ok (.rejected request)
  drainDone : ok .drainDone
  fatal : ∀ f, ok (.fatal f)

theorem Permits.windowOpen (h : Permits p ok) : WindowOpen p ok :=
  ⟨h.access, h.fatal _, h.fatal _⟩

theorem settle_ensures {post : Unit → NPUDevice B → Prop} (hDone : ok .drainDone)
    (hPost : post () (settled be d)) :
    Prog.Ensures ok (syncBackendEvent be >>= fun _ => checkDrainDone be) d post := by
  apply Prog.Ensures.modify_bind
  apply Prog.Ensures.get_bind
  apply Prog.Ensures.ite
  · intro (hDrain : d.drainState = .draining ∧ d.dmaQuiesced be = true)
    apply Prog.Ensures.emit_bind hDone
    apply Prog.Ensures.modify
    rwa [settled, if_pos hDrain] at hPost
  · intro (hDrain : ¬ (d.drainState = .draining ∧ d.dmaQuiesced be = true))
    apply Prog.Ensures.pure
    rwa [settled, if_neg hDrain] at hPost

/-- A state in which the completion of a request leaves the backend. -/
def Completes (be : CoralBackend B) (now : Nat) (b b' : B) : Prop :=
  ∃ data size error, b' = (be.completeDma now data size error b).state

section Complete

variable (hFatal : ∀ f, ok (.fatal f)) (hDone : ok .drainDone)
include hFatal hDone

theorem completeBackendDma_ensures (data : ByteMem) {post : Unit → NPUDevice B → Prop}
    (hPost : ∀ b, Completes be d.curTick (be.dmaRequest d.backend).state b → d.dmaActive = true →
      be.hasDmaRequest b = false → post () (settled be { d with
        backend := b, dmaActive := false, dmaCompletions := d.dmaCompletions + 1 })) :
    Prog.Ensures ok (completeBackendDma be data) d post := by
  apply Prog.Ensures.get_bind
  apply ensures_fatalIf_bind (fun _ => hFatal _)
  intro hActive
  apply ensures_onBackend_bind (fun f _ => hFatal f)
  intro request _
  apply Prog.Ensures.modify_bind
  apply Prog.Ensures.get_bind
  apply ensures_onBackend_bind (fun f _ => hFatal f)
  intro _ _
  apply Prog.Ensures.modify_bind
  apply Prog.Ensures.get_bind
  apply ensures_fatalIf_bind (fun _ => hFatal _)
  intro hReleased
  apply settle_ensures hDone
  exact hPost _ ⟨some data, request.size, false, rfl⟩ (by simpa using hActive) hReleased

theorem completeBackendDmaError_ensures {post : Unit → NPUDevice B → Prop}
    (hPost : ∀ b, Completes be d.curTick d.backend b → d.dmaActive = false →
      be.hasDmaRequest b = false →
      post () (settled be { d with backend := b, dmaErrors := d.dmaErrors + 1 })) :
    Prog.Ensures ok (completeBackendDmaError be) d post := by
  apply Prog.Ensures.get_bind
  apply ensures_fatalIf_bind (fun _ => hFatal _)
  intro hActive
  apply Prog.Ensures.get_bind
  apply ensures_fatalIf_bind (fun _ => hFatal _)
  intro _
  apply Prog.Ensures.get_bind
  apply ensures_onBackend_bind (fun f _ => hFatal f)
  intro _ _
  apply Prog.Ensures.modify_bind
  apply Prog.Ensures.get_bind
  apply ensures_fatalIf_bind (fun _ => hFatal _)
  intro hReleased
  apply settle_ensures hDone
  exact hPost _ ⟨none, 0, true, rfl⟩ hActive hReleased

end Complete

/-! ## DMA requests -/

theorem settled_frame (be : CoralBackend B) (d : NPUDevice B) (memory cache : ByteMem)
    (valid dirty : Nat → Bool) :
    settled be { d with
        memory := memory, fastDmaCache := cache, fastDmaPageValid := valid
        fastDmaPageDirty := dirty } =
      { settled be d with
        memory := memory, fastDmaCache := cache, fastDmaPageValid := valid
        fastDmaPageDirty := dirty } := rfl

/-- Only the memory and the page cache differ. -/
def SameControl (d d' : NPUDevice B) : Prop :=
  ∃ memory cache valid dirty, d' = { d with
    memory := memory, fastDmaCache := cache, fastDmaPageValid := valid, fastDmaPageDirty := dirty }

theorem SameControl.refl (d : NPUDevice B) : SameControl d d := ⟨_, _, _, _, rfl⟩

theorem stable_sameControl (d : NPUDevice B) : Stable (SameControl d) := by
  rintro d' memory cache valid dirty ⟨_, _, _, _, rfl⟩
  exact ⟨memory, cache, valid, dirty, rfl⟩

section Shell

variable (hPermits : Permits p ok)
include hPermits

variable {J : NPUDevice B → Prop} (hStable : Stable J)
include hStable

theorem submitDma_ensures (request : CoralDmaRequest) (hWindow : p.inWindow request = true)
    (hIdle : d.dmaActive = false)
    (hServed : ∀ b, Completes be d.curTick (be.dmaRequest d.backend).state b → p.fastDma = true →
      be.hasDmaRequest b = false → J (settled be { d with
        backend := b, dmaRequests := d.dmaRequests + 1, dmaCompletions := d.dmaCompletions + 1 }))
    (hIssued : p.fastDma = false → J { d with
      dmaActive := true, dmaRequests := d.dmaRequests + 1, inFlight := true }) :
    Prog.Ensures ok (submitDma be p request) d fun _ => J := by
  apply Prog.Ensures.modify_bind
  apply Prog.Ensures.ite
  · intro hFast
    apply Prog.Ensures.bind (fastDmaAccess_ensures
      (stable_sameControl _) hPermits.windowOpen request _
      _ (.refl _))
    rintro data _ ⟨memory, cache, valid, dirty, rfl⟩
    apply completeBackendDma_ensures hPermits.fatal hPermits.drainDone
    intro b hCompletes _ hReleased
    have hSettled := hStable _ memory cache valid dirty (hServed b hCompletes hFast hReleased)
    rw [← settled_frame] at hSettled
    rw [← hIdle]
    exact hSettled
  · intro hTiming
    apply Prog.Ensures.emit_bind
    · cases request.type with
      | read => exact hPermits.dmaRead request hWindow
      | write => exact hPermits.dmaWrite request hWindow
    · exact .modify (hIssued (by simpa using hTiming))

theorem startBackendDma_ensures
    (hIdle : d.dmaActive = true ∨ be.hasDmaRequest d.backend = false → J d)
    (hRejected : ∀ b, Completes be d.curTick (be.dmaRequest d.backend).state b →
      d.dmaActive = false →
      be.hasDmaRequest b = false →
      J (settled be { d with backend := b, dmaErrors := d.dmaErrors + 1 }))
    (hServed : ∀ b,
      Completes be d.curTick (be.dmaRequest (be.dmaRequest d.backend).state).state b →
      d.dmaActive = false → p.fastDma = true → be.hasDmaRequest b = false → J (settled be { d with
        backend := b, dmaRequests := d.dmaRequests + 1, dmaCompletions := d.dmaCompletions + 1 }))
    (hIssued : d.dmaActive = false → p.fastDma = false → be.hasDmaRequest d.backend = true →
      J { d with
        backend := (be.dmaRequest d.backend).state, dmaActive := true
        dmaRequests := d.dmaRequests + 1, inFlight := true }) :
    Prog.Ensures ok (startBackendDma be p) d fun _ => J := by
  apply Prog.Ensures.get_bind
  apply Prog.Ensures.ite
  · rintro ⟨hFree, hRequest⟩
    apply ensures_onBackend_bind (fun f _ => hPermits.fatal f)
    intro request _
    apply Prog.Ensures.ite
    · intro hWindow
      apply submitDma_ensures hPermits hStable request hWindow
      · exact hFree
      · exact fun b hCompletes hFast hReleased => hServed b hCompletes hFree hFast hReleased
      · exact fun hTiming => hIssued hFree hTiming hRequest
    · intro hWindow
      apply Prog.Ensures.emit_bind (hPermits.rejected request (by simpa using hWindow))
      apply completeBackendDmaError_ensures hPermits.fatal hPermits.drainDone
      exact fun b hCompletes _ hReleased => hRejected b hCompletes hFree hReleased
  · intro hNone
    apply Prog.Ensures.pure
    apply hIdle
    cases hFree : d.dmaActive with
    | true => exact .inl rfl
    | false => exact .inr (by simpa [hFree] using hNone)

end Shell

/-! ## Entry points -/

/-- The events allowed include every access of a synchronization. -/
def SyncOpen (p : NPUDeviceParams) (ok : DeviceEvent → Prop) : Prop :=
  ∀ (command : MemCmd) k n, 0 < n → k + n ≤ p.fastDmaSyncSize →
    ok (command.event ((syncAddr p + k) % 2 ^ 64) n)

theorem syncOpen_of_range (hOpen : WindowOpen p ok)
    (hRange : p.fastDmaSyncOffset + p.fastDmaSyncSize ≤ p.dmaSharedSize) : SyncOpen p ok := by
  intro command k n hn hk
  rw [syncAddr, Nat.mod_add_mod, Nat.add_assoc]
  exact hOpen.access command _ n hn (by omega)

section Sync

variable (hZero : ok (.fatal .zeroBlockSize)) {J : NPUDevice B → Prop} (hStable : Stable J)
include hZero hStable

theorem syncHostToLocalExtmem_ensures
    (hFatal : ∀ addr size data, ∀ f ∈ (be.writeLocalExtmem addr size data d.backend).trace,
      ok (.fatal f))
    (hOpen : (∃ b, be.hasLocalExtmem b = true) → SyncOpen p ok) (hSkip : J d)
    (hSync : ∀ data, J { d with
      backend := (be.writeLocalExtmem (syncExtmemAddr p) p.fastDmaSyncSize data d.backend).state
      dmaRequests := d.dmaRequests + 1, dmaCompletions := d.dmaCompletions + 1 }) :
    Prog.Ensures ok (syncHostToLocalExtmem be p) d fun _ => J := by
  apply Prog.Ensures.get_bind
  apply Prog.Ensures.ite
  · intro hLocal
    apply Prog.Ensures.bind (functionalMemoryRange_ensures (stable_sameControl d) hZero
      (hOpen ⟨_, hLocal⟩ _) (.refl _))
    rintro data _ ⟨memory, cache, valid, dirty, rfl⟩
    apply ensures_onBackend_bind
    · exact hFatal _ _ data
    intro _ _
    apply Prog.Ensures.modify
    exact hStable _ memory cache valid dirty (hSync data)
  · exact fun _ => .pure hSkip

theorem syncLocalExtmemToHost_ensures
    (hFatal : ∀ addr size, ∀ f ∈ (be.readLocalExtmem addr size d.backend).trace, ok (.fatal f))
    (hOpen : SyncOpen p ok)
    (hSync : J { d with
      backend := (be.readLocalExtmem (syncExtmemAddr p) p.fastDmaSyncSize d.backend).state
      dmaRequests := d.dmaRequests + 1, dmaCompletions := d.dmaCompletions + 1 }) :
    Prog.Ensures ok (syncLocalExtmemToHost be p) d fun _ => J := by
  apply ensures_onBackend_bind
  · exact hFatal _ _
  intro data _
  apply Prog.Ensures.bind (functionalMemoryRange_ensures (stable_sameControl _) hZero (hOpen _)
    (.refl _))
  rintro _ _ ⟨memory, cache, valid, dirty, rfl⟩
  apply Prog.Ensures.modify
  exact hStable _ memory cache valid dirty hSync

omit hZero in
theorem publish_ensures (hWindow : WindowOpen p ok)
    (hFatal : ∀ addr size, ∀ f ∈ (be.readLocalExtmem addr size d.backend).trace, ok (.fatal f))
    (hOpen : p.fastDma = true → (∃ b, be.hasLocalExtmem b = true) → SyncOpen p ok) (hJ : J d)
    (hSync : J { d with
      backend := (be.readLocalExtmem (syncExtmemAddr p) p.fastDmaSyncSize d.backend).state
      dmaRequests := d.dmaRequests + 1, dmaCompletions := d.dmaCompletions + 1 }) :
    Prog.Ensures ok (publish be p) d fun _ => J := by
  apply Prog.Ensures.get_bind
  apply Prog.Ensures.ite
  · intro hStopped
    simp only [Bool.and_eq_true] at hStopped
    apply Prog.Ensures.ite
    · intro hLocal
      exact syncLocalExtmemToHost_ensures hWindow.zeroBlockSize hStable hFatal
        (hOpen hStopped.1.1 ⟨_, hLocal⟩) hSync
    · exact fun _ => flushFastDmaCache_ensures hStable hWindow hJ
  · exact fun _ => .pure hJ

end Sync

theorem processBatches_ensures {I K : NPUDevice B → Prop}
    (hTrace : ∀ d, I d → ∀ f ∈ (be.processEvent d.curTick d.backend).trace, ok (.fatal f))
    (hEvent : ∀ d, I d → (be.processEvent d.curTick d.backend).result = some () →
      K { d with backend := (be.processEvent d.curTick d.backend).state })
    (hDma : ∀ d, K d → Prog.Ensures ok (startBackendDma be p) d fun _ => I)
    (hUnscheduled : ∀ d, I d → I { d with backendEvent := none }) (budget : Nat) (hI : I d) :
    Prog.Ensures ok (processBatches be p budget) d fun _ => I := by
  induction budget generalizing d with
  | zero => exact .pure hI
  | succ budget ih =>
    apply Prog.Ensures.get_bind
    apply ensures_onBackend_bind (hTrace d hI)
    intro _ hReturned
    apply Prog.Ensures.bind (hDma _ (hEvent d hI hReturned))
    intro _ d' hI'
    apply Prog.Ensures.get_bind
    apply Prog.Ensures.ite
    · intro _
      apply Prog.Ensures.modify_bind
      exact ih (hUnscheduled d' hI')
    · exact fun _ => .pure hI'

theorem processBackendEvent_ensures {I J : NPUDevice B → Prop} {post : Unit → NPUDevice B → Prop}
    (hBatches : Prog.Ensures ok (processBatches be p (batchBudget p)) d fun _ => I)
    (hPublish : ∀ d, I d → Prog.Ensures ok (publish be p) d fun _ => J) (hDone : ok .drainDone)
    (hPost : ∀ d, J d → post () (settled be d)) :
    Prog.Ensures ok (processBackendEvent be p) d post := by
  apply Prog.Ensures.bind hBatches
  intro _ d' hI
  apply Prog.Ensures.bind (hPublish d' hI)
  intro _ d'' hJ
  exact settle_ensures hDone (hPost d'' hJ)

/-- The device once its event is up to date; its drain is not looked at. -/
def rescheduled (be : CoralBackend B) (d : NPUDevice B) : NPUDevice B :=
  { d with
    backendEvent :=
      if be.hasPendingEvent d.backend then some (be.nextEventTick d.backend) else none }

theorem read_ensures (addr size : Nat) {post : Option ByteMem → NPUDevice B → Prop}
    (hTrace : ∀ f ∈ (be.read (pioOffset p addr) size d.backend).trace, ok (.fatal f))
    (hShell : ∀ value, size = 4 → d.shellRegister be p (pioOffset p addr) = some value →
      post (some (ByteMem.bytesOf value)) (rescheduled be d))
    (hBackend : ∀ response, (be.read (pioOffset p addr) size d.backend).result = some response →
      post response (rescheduled be { d with
        backend := (be.read (pioOffset p addr) size d.backend).state })) :
    Prog.Ensures ok (read be p addr size) d post := by
  apply Prog.Ensures.bind (Q := fun response d' => post response (rescheduled be d'))
  · apply Prog.Ensures.get_bind
    cases hRegister : if size = 4 then d.shellRegister be p (pioOffset p addr) else none with
    | some value =>
      apply Prog.Ensures.pure
      obtain ⟨hSize, hValue⟩ : size = 4 ∧ d.shellRegister be p (pioOffset p addr) = some value := by
        split at hRegister
        · exact ⟨‹_›, hRegister⟩
        · cases hRegister
      exact hShell value hSize hValue
    | none => exact ensures_onBackend hTrace hBackend
  · intro response d' hPost
    exact .modify_bind (.pure hPost)

theorem write_ensures {I J : NPUDevice B → Prop} (addr size : Nat) (data : ByteMem)
    (hStable : Stable J)
    (hSync : p.fastDma = true → Prog.Ensures ok (syncHostToLocalExtmem be p) d fun _ => I)
    (hI : I d)
    (hTrace : ∀ d, I d → ∀ f ∈ (be.write d.curTick (pioOffset p addr) size data d.backend).trace,
      ok (.fatal f))
    (hWrite : ∀ d, I d → ∀ accepted,
      (be.write d.curTick (pioOffset p addr) size data d.backend).result = some accepted →
        J (rescheduled be { d with
          backend := (be.write d.curTick (pioOffset p addr) size data d.backend).state })) :
    Prog.Ensures ok (write be p addr size data) d fun _ => J := by
  apply Prog.Ensures.bind (Q := fun _ => I)
  · apply Prog.Ensures.when
    · intro hStart
      simp only [Bool.and_eq_true] at hStart
      exact hSync hStart.1.1
    · exact fun _ => hI
  · intro _ d' hI'
    apply Prog.Ensures.get_bind
    apply ensures_onBackend_bind (hTrace d' hI')
    intro accepted hAccepted
    have hJ := hWrite d' hI' accepted hAccepted
    apply Prog.Ensures.bind (Q := fun _ d'' => J (rescheduled be d''))
    · apply Prog.Ensures.when
      · intro _
        apply Prog.Ensures.modify
        exact hStable _ d'.memory d'.fastDmaCache (fun _ => false) (fun _ => false) hJ
      · exact fun _ => hJ
    · intro _ d'' hJ''
      exact .modify_bind (.pure hJ'')

/-! ## Properties of the backend -/

/-- A property of the backend that each of its calls at this tick keeps. -/
structure Keeps (be : CoralBackend B) (now : Nat) (Inv : B → Prop) : Prop where
  read : ∀ offset size b, Inv b → Inv (be.read offset size b).state
  write : ∀ offset size data b, Inv b → Inv (be.write now offset size data b).state
  processEvent : ∀ b, Inv b → (be.processEvent now b).result = some () →
    Inv (be.processEvent now b).state
  dmaRequest : ∀ b, Inv b → Inv (be.dmaRequest b).state
  completeDma : ∀ data size error b, Inv b → Inv (be.completeDma now data size error b).state
  readLocalExtmem : ∀ addr size b, Inv b → Inv (be.readLocalExtmem addr size b).state
  writeLocalExtmem : ∀ addr size data b, Inv b → Inv (be.writeLocalExtmem addr size data b).state

theorem permits_true (p : NPUDeviceParams) : Permits p fun _ => True :=
  ⟨fun _ _ _ _ _ => trivial, fun _ _ => trivial, fun _ _ => trivial, fun _ _ => trivial, trivial,
    fun _ => trivial⟩

/-- A property of the backend holds after every entry point that its calls keep it in. -/
theorem enter_keeps {Inv : B → Prop} (hKeeps : Keeps be d.curTick Inv) (entry : Entry)
    (h : Inv d.backend) :
    Prog.Ensures (fun _ => True) (enter be p entry) d fun _ d' => Inv d'.backend := by
  -- The tick is carried along, since a call of the backend is made at the tick of the device.
  let I : NPUDevice B → Prop := fun d' => Inv d'.backend ∧ d'.curTick = d.curTick
  have hStable : Stable I := fun _ _ _ _ _ h => h
  have hCompletes : ∀ {b b'}, Inv b → Completes be d.curTick b b' → Inv b' := by
    rintro b _ hb ⟨data, size, error, rfl⟩
    exact hKeeps.completeDma data size error b hb
  cases entry with
  | read addr size =>
    apply Prog.Ensures.bind (Q := fun _ d' => Inv d'.backend)
    · apply read_ensures
      · exact fun _ _ => trivial
      · exact fun _ _ _ => h
      · exact fun _ _ => hKeeps.read _ _ _ h
    · exact fun _ _ h => .pure h
  | write addr size data =>
    apply Prog.Ensures.bind (write_ensures (I := I) addr size data
      (fun _ _ _ _ _ h => h : Stable fun d' => Inv d'.backend) _ ⟨h, rfl⟩
        (fun _ _ _ _ => trivial) ?_)
    · exact fun _ _ h => .pure h
    · intro _
      exact syncHostToLocalExtmem_ensures trivial hStable (fun _ _ _ _ _ => trivial)
        (fun _ _ _ _ _ _ => trivial) ⟨h, rfl⟩
        fun data => ⟨hKeeps.writeLocalExtmem _ _ data _ h, rfl⟩
    · rintro d' ⟨hInv, hTick⟩ _ _
      rw [hTick]
      exact hKeeps.write _ _ _ _ hInv
  | backendEvent =>
    apply Prog.Ensures.modify_bind
    apply processBackendEvent_ensures (I := I) (J := I)
    · apply processBatches_ensures (K := I)
      · exact fun _ _ _ _ => trivial
      · rintro d' ⟨hInv, hTick⟩ hReturned
        rw [hTick] at hReturned ⊢
        exact ⟨hKeeps.processEvent _ hInv hReturned, rfl⟩
      · rintro d' ⟨hInv, hTick⟩
        have hRequest := hKeeps.dmaRequest _ hInv
        rw [← hTick] at hCompletes
        apply startBackendDma_ensures (permits_true p) hStable
        · exact fun _ => ⟨hInv, hTick⟩
        · exact fun b hb _ _ => ⟨hCompletes hRequest hb, hTick⟩
        · exact fun b hb _ _ _ => ⟨hCompletes (hKeeps.dmaRequest _ hRequest) hb, hTick⟩
        · exact fun _ _ _ => ⟨hRequest, hTick⟩
      · exact fun _ h => h
      · exact ⟨h, rfl⟩
    · rintro d' ⟨hInv, hTick⟩
      exact publish_ensures hStable (permits_true p).windowOpen (fun _ _ _ _ => trivial)
        (fun _ _ _ _ _ _ _ => trivial) ⟨hInv, hTick⟩ ⟨hKeeps.readLocalExtmem _ _ _ hInv, hTick⟩
    · trivial
    · exact fun _ h => h.1
  | dmaCallback data =>
    apply Prog.Ensures.modify_bind
    apply completeBackendDma_ensures (fun _ => trivial) trivial data
    exact fun b hb _ _ => hCompletes (hKeeps.dmaRequest _ h) hb
  | drain => exact .modify h
  | resume => exact .modify h
  | hostStore addr size data => exact .modify h

end Rules
end OpenNpux.Device.NPUDevice
