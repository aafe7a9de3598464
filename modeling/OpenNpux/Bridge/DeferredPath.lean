import OpenNpux.Bridge.LocalExtmem

/-!
# The local and the deferred path agree

A peer serves the requests in the slot from a byte memory. One burst after another, the
bridge with its local EXTMEM and the bridge with such a peer queue the same responses
and change their memories alike, also for the bursts that the builders reject.
-/

namespace OpenNpux.Bridge

open Lib

/-- The peer's answer to what `dmaRequestGet` returns, always without an error. -/
def peerServe (h : Handle) (memory : ByteMem) : Handle × ByteMem :=
  match h.dmaRequestGet with
  | none => (h, memory)
  | some request =>
    match request.type with
    | .read =>
      ((h.dmaComplete (some (fun i => memory (request.addr.toNat - extmemBase + i), request.size))
        false).1, memory)
    | .write =>
      ((h.dmaComplete none false).1,
        memory.store (request.addr.toNat - extmemBase) request.size request.data)

def Burst.serveDeferred {F : Type} (cfg : BridgeConfig F) (s : Handle × ByteMem) (b : Burst) :
    Handle × ByteMem :=
  peerServe (b.serve cfg s.1) s.2

def StartsInAperture (a : AxiAddr) : Prop :=
  extmemBase ≤ a.addr.toNat ∧ a.addr.toNat < extmemBase + extmemSize

instance (a : AxiAddr) : Decidable (StartsInAperture a) := inferInstanceAs (Decidable (_ ∧ _))

/-- An accepted burst stays inside its page, and the aperture ends with a page. -/
theorem StartsInAperture.inAperture {a : AxiAddr} (h : StartsInAperture a)
    (hAccepted : a.Accepted) :
    InAperture a := by
  obtain ⟨hStart, hEnd⟩ := h
  have hPage := hAccepted.page
  simp only [AxiAddr.pageAccepted, Bool.and_eq_true, decide_eq_true_eq] at hPage
  refine ⟨hStart, ?_⟩
  unfold extmemBase extmemSize at hEnd ⊢
  omega

theorem StartsInAperture.not_register {a : AxiAddr} (h : StartsInAperture a) :
    inRegisterWindow a = false := by
  have hEnd := h.2
  unfold extmemBase extmemSize at hEnd
  exact not_register_of_below (by omega)

/-- The two bridges between bursts: same drivers, same memory, nothing outstanding. -/
structure PathsAgree (h : Handle) (s : Handle × ByteMem) : Prop where
  enabled : h.localExtmemEnabled = true
  disabled : s.1.localExtmemEnabled = false
  idle : h.dmaPending = false
  idleDeferred : s.1.dmaPending = false
  masterRead : h.masterRead = s.1.masterRead
  masterWrite : h.masterWrite = s.1.masterWrite
  memory : h.localExtmem = s.2

theorem peerServe_idle (h : Handle) (hIdle : h.dmaPending = false) (memory : ByteMem) :
    peerServe h memory = (h, memory) := by
  simp [peerServe, Handle.dmaRequestGet, hIdle]

theorem peerServe_deferRead (h : Handle) (a : AxiAddr) (memory : ByteMem) :
    peerServe (h.deferRead a) memory =
      ({ h.queueRead (dataBeats (readRequest a) a.bytesPerBeat a.beats
          fun i => memory (a.addr.toNat - extmemBase + i)) with
        dmaPending := false
        pendingDma := {}
        dmaBeatSize := a.bytesPerBeat
        dmaBeatCount := a.beats }, memory) := by
  simp [peerServe, Handle.dmaRequestGet, Handle.deferRead, Handle.dmaComplete, readRequest,
    Handle.queueRead, Handle.clearSlot]

theorem peerServe_deferWrite (h : Handle) (a : AxiAddr) (data : List AxiWData) (memory : ByteMem) :
    peerServe (h.deferWrite a data) memory =
      ({ h.queueWrite { id := a.id } with dmaPending := false, pendingDma := {} },
        memory.store (a.addr.toNat - extmemBase) a.burstBytes (burstByte a data)) := by
  rw [← store_writeRequest]
  simp [peerServe, Handle.dmaRequestGet, Handle.deferWrite, Handle.dmaComplete, Handle.clearSlot,
    Handle.queueWrite, writeRequest, writeRequestUpTo]

section Paths

variable {F : Type} (cfg : BridgeConfig F) {h : Handle} {s : Handle × ByteMem}

theorem PathsAgree.read (hAgree : PathsAgree h s) {a : AxiAddr} (ha : StartsInAperture a) :
    PathsAgree (h.readCallback cfg a) (peerServe (s.1.readCallback cfg a) s.2) := by
  by_cases hAccepted : a.Accepted
  · have hIn := ha.inAperture hAccepted
    rw [h.readCallback_served cfg ha.not_register hAccepted (hIn.servedLocally hAgree.enabled),
      s.1.readCallback_deferred cfg ha.not_register hAccepted
        (by rw [servedLocally, hAgree.disabled, Bool.false_and]), peerServe_deferRead]
    refine ⟨hAgree.enabled, hAgree.disabled, hAgree.idle, rfl, ?_, hAgree.masterWrite,
      hAgree.memory⟩
    simp only [Handle.serveRead, Handle.queueRead, hAgree.masterRead, hAgree.memory]
  · rw [h.readCallback_rejected cfg ha.not_register hAccepted,
      s.1.readCallback_rejected cfg ha.not_register hAccepted,
      peerServe_idle (s.1.queueRead _) hAgree.idleDeferred]
    refine ⟨hAgree.enabled, hAgree.disabled, hAgree.idle, hAgree.idleDeferred, ?_,
      hAgree.masterWrite, hAgree.memory⟩
    simp only [Handle.queueRead, hAgree.masterRead]

theorem PathsAgree.write (hAgree : PathsAgree h s) {a : AxiAddr} (ha : StartsInAperture a)
    (data : List AxiWData) :
    PathsAgree (h.writeCallback cfg a data) (peerServe (s.1.writeCallback cfg a data) s.2) := by
  by_cases hBuilt : a.Accepted ∧ CompleteBeats a data
  · have hIn := ha.inAperture hBuilt.1
    rw [h.writeCallback_served cfg ha.not_register hBuilt (hIn.servedLocally hAgree.enabled),
      s.1.writeCallback_deferred cfg ha.not_register hBuilt
        (by rw [servedLocally, hAgree.disabled, Bool.false_and]), peerServe_deferWrite]
    refine ⟨hAgree.enabled, hAgree.disabled, hAgree.idle, rfl, hAgree.masterRead, ?_, ?_⟩
    · simp only [Handle.serveWrite, Handle.queueWrite, hAgree.masterWrite]
    · rw [Handle.serveWrite_localExtmem, hAgree.memory]
  · rw [h.writeCallback_rejected cfg ha.not_register hBuilt,
      s.1.writeCallback_rejected cfg ha.not_register hBuilt, peerServe_idle]
    · refine ⟨hAgree.enabled, hAgree.disabled, hAgree.idle, hAgree.idleDeferred, hAgree.masterRead,
        ?_, hAgree.memory⟩
      simp only [Handle.queueWrite, hAgree.masterWrite]
    · exact hAgree.idleDeferred

theorem PathsAgree.serve (hAgree : PathsAgree h s) {b : Burst} (hb : StartsInAperture b.addr) :
    PathsAgree (b.serve cfg h) (b.serveDeferred cfg s) := by
  cases b with
  | read a => exact hAgree.read cfg hb
  | write a data => exact hAgree.write cfg hb data

theorem PathsAgree.bursts {bursts : List Burst} (hAgree : PathsAgree h s)
    (hBursts : ∀ b ∈ bursts, StartsInAperture b.addr) :
    PathsAgree (bursts.foldl (Burst.serve cfg) h) (bursts.foldl (Burst.serveDeferred cfg) s) := by
  induction bursts generalizing h s with
  | nil => exact hAgree
  | cons b bursts ih =>
    exact ih (hAgree.serve cfg (hBursts b List.mem_cons_self)) fun b' hb' =>
      hBursts b' (List.mem_cons_of_mem _ hb')

theorem local_and_deferred_agree (h : Handle) (memory : ByteMem) (hIdle : h.dmaPending = false)
    (bursts : List Burst) (hBursts : ∀ b ∈ bursts, StartsInAperture b.addr) :
    let fast := bursts.foldl (Burst.serve cfg)
      { h with localExtmemEnabled := true, localExtmem := memory }
    let slow := bursts.foldl (Burst.serveDeferred cfg)
      ({ h with localExtmemEnabled := false }, memory)
    fast.masterRead.responses = slow.1.masterRead.responses ∧
      fast.masterWrite.responses = slow.1.masterWrite.responses ∧ fast.localExtmem = slow.2 := by
  intro fast slow
  have hStart : PathsAgree { h with localExtmemEnabled := true, localExtmem := memory }
      ({ h with localExtmemEnabled := false }, memory) := ⟨rfl, rfl, hIdle, hIdle, rfl, rfl, rfl⟩
  have hAgree : PathsAgree fast slow := hStart.bursts cfg hBursts
  exact ⟨by rw [hAgree.masterRead], by rw [hAgree.masterWrite], hAgree.memory⟩

end Paths

/-- A write of two beats, a read across it and a rejected read, on both paths. -/
theorem local_and_deferred_agree_mixed :
    let bursts := [Burst.write { addr := 0x20000008, len := 1, size := 3, burst := 1 }
        [{ data := fun l => UInt8.ofNat l, strb := 0xff00 },
          { data := fun l => UInt8.ofNat (l + 64), strb := 0x00ff, last := true }],
      Burst.read { addr := 0x2000000c, len := 2, size := 2, burst := 1 },
      Burst.read { addr := 0x20000001, size := 4, burst := 1 }]
    let fast := bursts.foldl (Burst.serve plainConfig)
      { ({} : Handle) with localExtmemEnabled := true, localExtmem := fun _ => 0 }
    let slow := bursts.foldl (Burst.serveDeferred plainConfig)
      ({ ({} : Handle) with localExtmemEnabled := false }, fun _ => 0)
    (fast.masterRead.responses.map fun beat => (beat.resp, beat.last)) =
        [(0, false), (0, false), (0, true), (2, true)] ∧
      fast.masterRead.responses = slow.1.masterRead.responses ∧
      fast.masterWrite.responses = slow.1.masterWrite.responses ∧ fast.localExtmem = slow.2 :=
  ⟨by decide +kernel, local_and_deferred_agree plainConfig {} _ rfl _ (by decide +kernel)⟩

end OpenNpux.Bridge
