import OpenNpux.Ndp.Progress

/-!
# Which burst a response belongs to

A response is matched by kind and range only, and the search goes on after a match unless
the burst is complete. The ledger below says what the log of events and the pending bursts
owe each other. A response keeps it if the first burst that waits for such a response is
the only one, or is completed by it; every burst then gets its data once.
-/

namespace OpenNpux.Ndp

open Lib

/-! ## The log -/

abbrev Bytes := Nat → UInt8

/-- The sub-requests of a burst that are retired, each with its response's data. -/
def retiredOf (log : List Event) (id : Nat) : List (SubRequest × Bytes) :=
  log.filterMap fun
    | .retired burst sub data => if burst = id then some (sub, data) else none
    | _ => none

def retirements (log : List Event) : List (Nat × SubRequest × Bytes) :=
  log.filterMap fun
    | .retired burst sub data => some (burst, sub, data)
    | _ => none

def deliveries (log : List Event) : List Nat :=
  log.filterMap fun
    | .recvData b => some b.id
    | _ => none

def creations (log : List Event) : List Nat :=
  log.filterMap fun
    | .created id _ _ => some id
    | _ => none

/-! ## What is waited for -/

abbrev Key := Bool × AddrRange

def BurstRequest.keys (b : BurstRequest) : List Key :=
  b.pendingSubRequests.map fun sub => (b.writeRequest, sub.addrRange)

def Packet.key (pkt : Packet) : Key := (pkt.write, pkt.getAddrRange)

def Engine.waits (s : Engine) : List Key := s.pendingRequests.flatMap BurstRequest.keys

def Engine.packets (s : Engine) : List Packet := s.inFlight ++ s.pendingReqPackets

def Engine.owed (s : Engine) : List Key := s.packets.map Packet.key

def Engine.holders (s : Engine) (pkt : Packet) : List BurstRequest :=
  s.pendingRequests.filter fun b => pkt.key ∈ b.keys

/-- If the first burst to wait for such a response waits for more, no other one does. -/
def Engine.Unambiguous (s : Engine) (pkt : Packet) : Prop :=
  ∀ b rest, s.holders pkt = b :: rest → b.pendingSubRequests.length = 1 ∨ rest = []

/-! ## Sub-requests of one burst -/

variable (params : NdpParams)

/-- What the sub-requests of a burst are like, if its packets are those of its blocks. -/
structure Cut (subs : List SubRequest) : Prop where
  ranges : ∀ sub ∈ subs, sub.addrRange.start ≤ sub.addrRange.stop ∧ sub.addrRange.stop < 2 ^ 64
  packets : ∀ sub ∈ subs,
    params.newPacket sub.addrRange.start sub.size = (sub.addrRange.start, sub.size)
  placed : ∀ sub ∈ subs, params.getOffset sub.addrRange.start sub.size = 0
  apart : subs.Pairwise fun sub sub' =>
    sub.offset + sub.size ≤ sub'.offset ∧ sub.addrRange ≠ sub'.addrRange

/-- What the condition asks of an access: it does not wrap around, its packets have a size that
is an `int`, and each of its sub-requests is a block. -/
def Access.Regular (call : Access) : Prop :=
  call.Fits params ∧ min params.maxRSze call.size < 2 ^ 31 ∧ call.Aligned params

instance (call : Access) : Decidable (call.Regular params) := inferInstanceAs (Decidable (_ ∧ _))

variable {params}

theorem Cut.packet_key {subs : List SubRequest} (h : Cut params subs) {sub : SubRequest}
    (hSub : sub ∈ subs) (write : Bool) (data : Bytes) :
    (sub.packet params write data).key = (write, sub.addrRange) := by
  have hStop : (sub.addrRange.start + sub.size) % 2 ^ 64 = sub.addrRange.stop := by
    have hRange := h.ranges sub hSub
    rw [SubRequest.size_eq hRange]
    omega
  unfold Packet.key Packet.getAddrRange SubRequest.packet
  dsimp only
  rw [h.packets sub hSub, hStop]

theorem cut_split (hPackets : params.BlockPackets) {call : Access} (hCall : call.Regular params) :
    Cut params ((List.range (subRequestCount params call.size)).map
      (subRequestAt params call.addr call.size)) := by
  obtain ⟨hFits, hInt, hAligned⟩ := hCall
  have hSize {n : Nat} (hn : n < subRequestCount params call.size) :
      0 < min params.maxRSze (call.size - n * params.maxRSze) ∧
        min params.maxRSze (call.size - n * params.maxRSze) < 2 ^ 31 := by
    have hStart := (lt_subRequestCount params).mp hn
    have hPos := params.rszePos
    omega
  constructor
  · intro sub hSub
    obtain ⟨n, hn, rfl⟩ := List.mem_map.mp hSub
    exact subRequestAt_range hFits.1 (List.mem_range.mp hn)
  · intro sub hSub
    obtain ⟨n, hn, rfl⟩ := List.mem_map.mp hSub
    have hn := List.mem_range.mp hn
    have hRange := subRequestAt_range hFits.1 hn
    rw [subRequestAt_size hFits.1 hn]
    exact (hPackets.keeps_iff (by omega) (hSize hn).1 (hSize hn).2).mpr (hAligned n hn)
  · intro sub hSub
    obtain ⟨n, hn, rfl⟩ := List.mem_map.mp hSub
    have hn := List.mem_range.mp hn
    rw [subRequestAt_size hFits.1 hn, hPackets.getOffset _ _ (hSize hn).1 (hSize hn).2]
    exact hAligned n hn
  · rw [List.pairwise_map]
    refine (List.pairwise_lt_range).imp_of_mem fun _ hk hLess => ?_
    exact subRequestAt_apart hFits.1 hLess (List.mem_range.mp hk)

/-! ## The ledger -/

variable (params) in
/-- Each sub-request of the burst is pending or was retired by a response, whose data is in
the buffer if it is a read. -/
structure BurstRequest.Tracked (log : List Event) (b : BurstRequest) (subs : List SubRequest) :
    Prop where
  created : .created b.id b.writeRequest subs ∈ log
  cut : Cut params subs
  shared : (b.pendingSubRequests ++ (retiredOf log b.id).map Prod.fst).Perm subs
  buffer : b.writeRequest = false → ∀ r ∈ retiredOf log b.id, ∀ i < r.1.size,
    b.data (r.1.offset + i) = r.2 i

variable (params) in
/-- The log and the pending bursts, while the responses `answered` are being handled: a burst
that was created is pending or was handed over, and what is waited for is what packets owe. -/
structure Ledger (answered : List Key) (log : List Event) (s : Engine) : Prop where
  once : (creations log).Nodup
  fresh : ∀ id ∈ creations log, id < s.nextBurst
  shared : (s.pendingRequests.map BurstRequest.id ++ deliveries log).Perm (creations log)
  known : ∀ id, retiredOf log id ≠ [] → id ∈ creations log
  pending : ∀ b ∈ s.pendingRequests,
    b.pendingSubRequests ≠ [] ∧ ∃ subs, b.Tracked params log subs
  delivered : ∀ b, .recvData b ∈ log →
    b.pendingSubRequests = [] ∧ ∃ subs, b.Tracked params log subs
  matched : (s.waits ++ answered).Perm s.owed
  sizes : ∀ pkt ∈ s.packets, pkt.size < 2 ^ 64

/-! ## Events that retire nothing -/

def Event.Quiet : Event → Prop
  | .sendData _ _ => True
  | .created _ _ _ => True
  | .retired _ _ _ => False
  | .recvData _ => False

section Quiet

variable {t : List Event} (h : ∀ e ∈ t, e.Quiet)

include h

theorem retiredOf_quiet (id : Nat) : retiredOf t id = [] := by
  rw [retiredOf, List.filterMap_eq_nil_iff]
  intro e he
  cases e with
  | sendData | created | recvData => rfl
  | retired => exact (h _ he).elim

theorem retirements_quiet : retirements t = [] := by
  rw [retirements, List.filterMap_eq_nil_iff]
  intro e he
  cases e with
  | sendData | created | recvData => rfl
  | retired => exact (h _ he).elim

theorem deliveries_quiet : deliveries t = [] := by
  rw [deliveries, List.filterMap_eq_nil_iff]
  intro e he
  cases e with
  | sendData | created | retired => rfl
  | recvData => exact (h _ he).elim

end Quiet

theorem retiredOf_append (log t : List Event) (id : Nat) :
    retiredOf (log ++ t) id = retiredOf log id ++ retiredOf t id := List.filterMap_append

theorem retirements_append (log t : List Event) :
    retirements (log ++ t) = retirements log ++ retirements t := List.filterMap_append

theorem deliveries_append (log t : List Event) :
    deliveries (log ++ t) = deliveries log ++ deliveries t := List.filterMap_append

theorem creations_append (log t : List Event) :
    creations (log ++ t) = creations log ++ creations t := List.filterMap_append

theorem BurstRequest.Tracked.append {log t : List Event} {b : BurstRequest} {subs : List SubRequest}
    (h : b.Tracked params log subs) (hNone : retiredOf t b.id = []) :
    b.Tracked params (log ++ t) subs := by
  have hSame : retiredOf (log ++ t) b.id = retiredOf log b.id := by
    rw [retiredOf_append, hNone, List.append_nil]
  refine ⟨List.mem_append_left _ h.created, h.cut, ?_, ?_⟩
  · rw [hSame]
    exact h.shared
  · rw [hSame]
    exact h.buffer

/-! ## Sending -/

structure Moved (t : List Event) (s s' : Engine) : Prop where
  silent : ∀ e ∈ t, ∃ queued flying, e = .sendData queued flying
  bursts : s'.pendingRequests = s.pendingRequests
  next : s'.nextBurst = s.nextBurst
  packets : s'.packets.Perm s.packets

theorem moved_of_trace {queued flying : Nat} {s s' : Engine}
    (hBursts : s'.pendingRequests = s.pendingRequests) (hNext : s'.nextBurst = s.nextBurst)
    (hPackets : s'.packets = s.packets) : Moved [.sendData queued flying] s s' where
  silent e he := ⟨queued, flying, List.mem_singleton.mp he⟩
  bursts := hBursts
  next := hNext
  packets := by rw [hPackets]

theorem sendData_moved (accepted : Bool) : (sendData params accepted).Follows Moved := by
  rintro ⟨active, flying, bursts, queue, next, inFlight, scheduled, retry⟩ _ hReturned
  unfold sendData at hReturned ⊢
  rw [Prog.get_bind] at hReturned ⊢
  dsimp only at hReturned ⊢
  by_cases hFull : flying = params.maxReqs
  · rw [if_pos hFull]
    exact moved_of_trace rfl rfl rfl
  · rw [if_neg hFull] at hReturned ⊢
    cases queue with
    | nil => cases hReturned
    | cons pkt packets =>
      cases accepted with
      | false => exact moved_of_trace rfl rfl rfl
      | true =>
        refine moved_of_trace rfl rfl ?_
        -- The packet leaves the head of the queue for the end of those in flight.
        exact List.append_assoc inFlight [pkt] packets

theorem Moved.quiet {t : List Event} {s s' : Engine} (h : Moved t s s') : ∀ e ∈ t, e.Quiet := by
  intro e he
  obtain ⟨_, _, rfl⟩ := h.silent e he
  trivial

theorem Ledger.moved {answered : List Key} {log t : List Event} {s s' : Engine}
    (h : Ledger params answered log s) (hMoved : Moved t s s') :
    Ledger params answered (log ++ t) s' := by
  have hCreations : creations (log ++ t) = creations log := by
    have hNone : creations t = [] := by
      rw [creations, List.filterMap_eq_nil_iff]
      intro e he
      obtain ⟨_, _, rfl⟩ := hMoved.silent e he
      rfl
    rw [creations_append, hNone, List.append_nil]
  have hRetired (id : Nat) : retiredOf t id = [] := retiredOf_quiet hMoved.quiet id
  constructor
  · rw [hCreations]
    exact h.once
  · rw [hCreations, hMoved.next]
    exact h.fresh
  · rw [hCreations, hMoved.bursts, deliveries_append, deliveries_quiet hMoved.quiet,
      List.append_nil]
    exact h.shared
  · intro id
    rw [hCreations, retiredOf_append, hRetired, List.append_nil]
    exact h.known id
  · rw [hMoved.bursts]
    intro b hb
    obtain ⟨hMore, subs, hSubs⟩ := h.pending b hb
    exact ⟨hMore, subs, hSubs.append (hRetired _)⟩
  · intro b hb
    rcases List.mem_append.mp hb with hOld | hNew
    · obtain ⟨hEmpty, subs, hSubs⟩ := h.delivered b hOld
      exact ⟨hEmpty, subs, hSubs.append (hRetired _)⟩
    · exact (hMoved.quiet _ hNew).elim
  · have hWaits : s'.waits = s.waits := by
      unfold Engine.waits
      rw [hMoved.bursts]
    rw [hWaits]
    exact h.matched.trans (hMoved.packets.map Packet.key).symm
  · intro pkt hPkt
    exact h.sizes pkt (hMoved.packets.mem_iff.mp hPkt)

/-! ## New bursts -/

variable (params) in
structure Keeps (t : List Event) (s s' : Engine) : Prop where
  quiet : ∀ e ∈ t, e.Quiet
  ledger : ∀ answered log, Ledger params answered log s → Ledger params answered (log ++ t) s'

instance : Prog.Composes (Keeps params) where
  nil s :=
    { quiet := fun _ hNever => absurd hNever List.not_mem_nil
      ledger := fun _ log h => by rwa [List.append_nil] }
  append {t t' _ _ _} hFirst hSecond :=
    { quiet := fun e he => (List.mem_append.mp he).elim (hFirst.quiet e) (hSecond.quiet e)
      ledger := fun answered log h => by
        rw [← List.append_assoc]
        exact hSecond.ledger _ _ (hFirst.ledger _ _ h) }

theorem Moved.keeps {t : List Event} {s s' : Engine} (h : Moved t s s') : Keeps params t s s' :=
  ⟨h.quiet, fun _ _ hLedger => hLedger.moved h⟩

theorem keeps_of_same {s s' : Engine} (hBursts : s'.pendingRequests = s.pendingRequests)
    (hNext : s'.nextBurst = s.nextBurst) (hPackets : s'.packets = s.packets) :
    Keeps params [] s s' :=
  Moved.keeps ⟨fun _ hNever => absurd hNever List.not_mem_nil, hBursts, hNext, by rw [hPackets]⟩

theorem sendData_keeps (accepted : Bool) : (sendData params accepted).Follows (Keeps params) :=
  fun s a ha => (sendData_moved accepted s a ha).keeps

variable (params) in
def Engine.withBurst (s : Engine) (call : Access) (subs : List SubRequest) : Engine :=
  { s with
    nextBurst := s.nextBurst + 1
    pendingRequests := s.pendingRequests ++
      [⟨s.nextBurst, ⟨call.addr, (call.addr + call.size) % 2 ^ 64⟩, call.data, call.write, subs⟩]
    pendingReqPackets := s.pendingReqPackets ++
      subs.map fun sub => sub.packet params call.write call.data }

theorem waits_withBurst (s : Engine) (call : Access) (subs : List SubRequest) :
    (s.withBurst params call subs).waits =
      s.waits ++ subs.map fun sub => (call.write, sub.addrRange) := by
  simp [Engine.waits, Engine.withBurst, BurstRequest.keys]

theorem owed_withBurst (s : Engine) (call : Access) {subs : List SubRequest}
    (hCut : Cut params subs) :
    (s.withBurst params call subs).owed =
      s.owed ++ subs.map fun sub => (call.write, sub.addrRange) := by
  have hKeys : subs.map (Packet.key ∘ fun sub => sub.packet params call.write call.data) =
      subs.map fun sub => (call.write, sub.addrRange) :=
    List.map_congr_left fun sub hSub => hCut.packet_key hSub call.write call.data
  simp only [Engine.owed, Engine.packets, Engine.withBurst, List.map_append, List.map_map, hKeys,
    List.append_assoc]

theorem Cut.tracked {subs : List SubRequest} (h : Cut params subs) {log : List Event} {e : Event}
    {b : BurstRequest} (hEvent : e = .created b.id b.writeRequest subs)
    (hSubs : b.pendingSubRequests = subs) (hNone : retiredOf log b.id = []) :
    b.Tracked params (log ++ [e]) subs := by
  subst hEvent
  have hStill : retiredOf (log ++ [.created b.id b.writeRequest subs]) b.id = [] := by
    rw [retiredOf_append, hNone]
    rfl
  constructor
  · exact List.mem_append_right _ (List.mem_singleton_self _)
  · exact h
  · rw [hStill, hSubs, List.map_nil, List.append_nil]
  · intro _ r hr
    rw [hStill] at hr
    cases hr

theorem Ledger.withBurst {answered : List Key} {log : List Event} {s : Engine}
    (h : Ledger params answered log s) {call : Access} {subs : List SubRequest}
    (hCut : Cut params subs) (hSome : subs ≠ []) :
    Ledger params answered (log ++ [.created s.nextBurst call.write subs])
      (s.withBurst params call subs) := by
  have hCreations : creations (log ++ [.created s.nextBurst call.write subs]) =
      creations log ++ [s.nextBurst] := creations_append _ _
  have hDeliveries : deliveries (log ++ [.created s.nextBurst call.write subs]) =
      deliveries log := by
    rw [deliveries_append]
    exact List.append_nil _
  have hNew : s.nextBurst ∉ creations log := fun hMem => absurd (h.fresh _ hMem) (lt_irrefl _)
  have hUnretired : retiredOf log s.nextBurst = [] := by
    by_contra hSome
    exact hNew (h.known _ hSome)
  constructor
  · rw [hCreations]
    refine List.nodup_append.mpr ⟨h.once, List.pairwise_singleton _ _, ?_⟩
    rintro id hOld _ hLast rfl
    exact hNew (List.mem_singleton.mp hLast ▸ hOld)
  · intro id hId
    rw [hCreations, List.mem_append, List.mem_singleton] at hId
    rcases hId with hOld | rfl
    · exact Nat.lt_succ_of_lt (h.fresh id hOld)
    · exact Nat.lt_succ_self _
  · rw [hCreations, hDeliveries]
    simp only [Engine.withBurst, List.map_append, List.map_cons, List.map_nil, List.append_assoc]
    refine List.Perm.trans ?_ (h.shared.append_right [s.nextBurst])
    rw [List.append_assoc]
    exact (@List.perm_append_comm _ [s.nextBurst] _).append_left _
  · intro id
    rw [hCreations, retiredOf_append]
    intro hRetired
    exact List.mem_append_left _ (h.known id (by simpa [retiredOf] using hRetired))
  · intro b hb
    rcases List.mem_append.mp hb with hOld | hLast
    · obtain ⟨hMore, subs', hSubs⟩ := h.pending b hOld
      exact ⟨hMore, subs', hSubs.append rfl⟩
    · obtain rfl := List.mem_singleton.mp hLast
      exact ⟨hSome, subs, hCut.tracked rfl rfl hUnretired⟩
  · intro b hb
    rcases List.mem_append.mp hb with hOld | hNever
    · obtain ⟨hEmpty, subs', hSubs⟩ := h.delivered b hOld
      exact ⟨hEmpty, subs', hSubs.append rfl⟩
    · cases List.mem_singleton.mp hNever
  · rw [waits_withBurst, owed_withBurst s call hCut]
    refine List.Perm.trans ?_ (h.matched.append_right _)
    rw [List.append_assoc, List.append_assoc]
    exact (List.perm_append_comm).append_left _
  · intro pkt hPkt
    simp only [Engine.packets, Engine.withBurst, ← List.append_assoc, List.mem_append,
      List.mem_map] at hPkt
    rcases hPkt with hOld | ⟨sub, hSub, rfl⟩
    · exact h.sizes pkt (List.mem_append.mpr hOld)
    · rw [SubRequest.packet, hCut.packets sub hSub]
      exact Nat.mod_lt _ (by decide)

section Accesses

variable (hPackets : params.BlockPackets)
include hPackets

theorem accessMemory_keeps {call : Access} (hSize : 0 < call.size) (hCall : call.Regular params) :
    (accessMemory params call).Follows (Keeps params) := by
  have hCut := cut_split hPackets hCall
  have hSome := @subRequests_ne_nil params call hSize
  unfold accessMemory
  rw [split_eq params hCall.1.1]
  dsimp only
  rw [copies_of_fits hCall.1, Prog.require_true_bind]
  generalize (List.range (subRequestCount params call.size)).map
    (subRequestAt params call.addr call.size) = subs at hCut hSome
  have hTail (active : Bool) : Prog.Follows (Keeps params) (if active then pure () else do
      Prog.modify fun s => { s with dmaActv := true }
      sendData params call.accepted) :=
    .ite (.pure ()) (.bind (.modify fun s => keeps_of_same rfl rfl rfl) fun _ =>
      sendData_keeps call.accepted)
  intro s a ha
  have hNew : Keeps params [.created s.nextBurst call.write subs] s
      (s.withBurst params call subs) := by
    refine ⟨fun e he => ?_, fun _ _ h => h.withBurst hCut hSome⟩
    rw [List.mem_singleton.mp he]
    trivial
  have hWhole := Prog.Composes.append hNew (hTail s.dmaActv (s.withBurst params call subs) a ha)
  exact hWhole

theorem accessAll_keeps {calls : List Access}
    (hCalls : ∀ call ∈ calls, 0 < call.size ∧ call.Regular params) :
    (accessAll params calls).Follows (Keeps params) := by
  induction calls with
  | nil => exact .pure ()
  | cons call calls ih =>
    obtain ⟨⟨hSize, hCall⟩, hRest⟩ := List.forall_mem_cons.mp hCalls
    exact .bind (accessMemory_keeps hPackets hSize hCall) fun _ => ih hRest

end Accesses

/-! ## The search -/

theorem BurstRequest.pop_of_holds {b : BurstRequest} {pkt : Packet} (h : pkt.key ∈ b.keys) :
    b.writeRequest = pkt.write ∧ ∃ sub ∈ b.pendingSubRequests, sub.addrRange = pkt.getAddrRange ∧
      b.popPendingSubRequest pkt.getAddrRange =
        some (sub, { b with pendingSubRequests := b.pendingSubRequests.erase sub }) := by
  obtain ⟨held, hHeld, hKey⟩ := List.mem_map.mp h
  obtain ⟨hWrite, hRange⟩ := Prod.mk.inj hKey
  refine ⟨hWrite, ?_⟩
  cases hFind : b.pendingSubRequests.find? fun sub => sub.addrRange = pkt.getAddrRange with
  | none =>
    have hNone := List.find?_eq_none.mp hFind held hHeld
    exact absurd (decide_eq_true hRange) hNone
  | some sub =>
    refine ⟨sub, List.mem_of_find?_eq_some hFind, ?_, ?_⟩
    · simpa using List.find?_some hFind
    · unfold popPendingSubRequest
      rw [hFind]
      rfl

theorem BurstRequest.pop_of_not_holds {b : BurstRequest} {pkt : Packet}
    (hWrite : b.writeRequest = pkt.write) (h : pkt.key ∉ b.keys) :
    b.popPendingSubRequest pkt.getAddrRange = none := by
  unfold popPendingSubRequest
  rw [Option.map_eq_none_iff, List.find?_eq_none]
  intro sub hSub hRange
  apply h
  refine List.mem_map.mpr ⟨sub, hSub, ?_⟩
  rw [hWrite, of_decide_eq_true hRange]
  rfl

variable (params) in
def BurstRequest.retired (b : BurstRequest) (sub : SubRequest) (pkt : Packet) (data : Bytes) :
    BurstRequest :=
  BurstRequest.receive params { b with pendingSubRequests := b.pendingSubRequests.erase sub } sub
    pkt data

variable (params) in
/-- What is done with the first burst that waits for the response, if the search ends there. -/
def retire (b : BurstRequest) (sub : SubRequest) (pkt : Packet) (data : Bytes)
    (calls : List Access) : Prog Engine Event Unit := do
  Prog.modify fun s => s.replace (b.retired params sub pkt data)
  Prog.emit (.retired b.id sub data)
  if (b.retired params sub pkt data).pendingSubRequests.isEmpty then do
    Prog.emit (.recvData (b.retired params sub pkt data))
    accessAll params calls
    Prog.modify fun s => s.remove b.id
  else pure ()

section Scan

variable {pkt : Packet} {data : Bytes} {calls : List Access}

theorem scan_skip {b : BurstRequest} (bursts : List BurstRequest) (h : pkt.key ∉ b.keys) :
    scan params pkt data calls (b :: bursts) = scan params pkt data calls bursts := by
  rw [scan]
  split
  · rename_i hWrite
    rw [BurstRequest.pop_of_not_holds hWrite h]
  · rfl

theorem scan_none {bursts : List BurstRequest} (h : ∀ b ∈ bursts, pkt.key ∉ b.keys) :
    scan params pkt data calls bursts = pure () := by
  induction bursts with
  | nil => rfl
  | cons b bursts ih =>
    obtain ⟨hHead, hRest⟩ := List.forall_mem_cons.mp h
    rw [scan_skip bursts hHead, ih hRest]

theorem receive_pending (b : BurstRequest) (sub : SubRequest) :
    (b.receive params sub pkt data).pendingSubRequests = b.pendingSubRequests := by
  unfold BurstRequest.receive
  split <;> rfl

theorem receive_id (b : BurstRequest) (sub : SubRequest) :
    (b.receive params sub pkt data).id = b.id := by
  unfold BurstRequest.receive
  split <;> rfl

theorem receive_write (b : BurstRequest) (sub : SubRequest) :
    (b.receive params sub pkt data).writeRequest = b.writeRequest := by
  unfold BurstRequest.receive
  split <;> rfl

/-- The search stops at the first holder if that is completed or there is no other. -/
theorem scan_eq_retire {bursts rest : List BurstRequest} {b : BurstRequest}
    (hHolders : bursts.filter (fun b => pkt.key ∈ b.keys) = b :: rest)
    (hOne : b.pendingSubRequests.length = 1 ∨ rest = []) :
    b ∈ bursts ∧ b.writeRequest = pkt.write ∧ ∃ sub ∈ b.pendingSubRequests,
      sub.addrRange = pkt.getAddrRange ∧
        scan params pkt data calls bursts = retire params b sub pkt data calls := by
  induction bursts with
  | nil => cases hHolders
  | cons c bursts ih =>
    by_cases hHolds : pkt.key ∈ c.keys
    · rw [List.filter_cons_of_pos (by simpa using hHolds)] at hHolders
      obtain ⟨rfl, hRest⟩ := List.cons.inj hHolders
      obtain ⟨hWrite, sub, hSub, hRange, hPop⟩ := c.pop_of_holds hHolds
      refine ⟨List.mem_cons_self, hWrite, sub, hSub, hRange, ?_⟩
      rw [scan, if_pos hWrite, hPop]
      unfold retire BurstRequest.retired
      dsimp only
      rw [receive_pending]
      cases hEmpty : (c.pendingSubRequests.erase sub).isEmpty with
      | true => rfl
      | false =>
        -- More is waited for, so there is no other holder and the rest is passed over.
        have hAlone : rest = [] := by
          rcases hOne with hLength | hAlone
          · have hErased := List.length_erase_of_mem hSub
            rw [hLength] at hErased
            rw [List.isEmpty_eq_false_iff, ← List.length_pos_iff] at hEmpty
            omega
          · exact hAlone
        have hNone : ∀ b ∈ bursts, pkt.key ∉ b.keys := by
          intro b hb hKey
          have hMem : b ∈ rest := hRest ▸ List.mem_filter.mpr ⟨hb, by simpa using hKey⟩
          rw [hAlone] at hMem
          cases hMem
        rw [scan_none hNone]
    · rw [List.filter_cons_of_neg (by simpa using hHolds)] at hHolders
      obtain ⟨hMem, hWrite, sub, hSub, hRange, hScan⟩ := ih hHolders
      refine ⟨List.mem_cons_of_mem _ hMem, hWrite, sub, hSub, hRange, ?_⟩
      rw [scan_skip bursts hHolds, hScan]

end Scan

end OpenNpux.Ndp
