import OpenNpux.Lib.Bytes
import OpenNpux.Lib.Prog
import OpenNpux.Lib.Run

/-!
# The DMA engine of an NDP device

A burst is cut into sub-requests, each with a packet of its own. Packets are sent in
order, at most one a cycle, while a limited number is unanswered; a response is matched
with a sub-request by its kind and its address range. Addresses and sizes are 64-bit
words, and what gem5 makes of a packet's address is a parameter. The callback of the
device is a parameter of a response: the accesses that it makes. What belongs to the port
and to the event queue is kept beside the engine's own fields, and a buffer belongs to its
burst: callers hand over one that is not null and in no other use until they get it back.
-/

namespace OpenNpux.Ndp

open Lib

structure NdpParams where
  maxRSze : Nat
  maxReqs : Nat
  /-- The address and the size that the constructor of `Packet` takes from the address of a
  request and a block size. -/
  newPacket : Nat → Nat → Nat × Nat
  /-- The function `Packet::getOffset` of an address and a block size: the method
  `writeDataToBlock` copies a packet's bytes to that offset from the pointer it is given. -/
  getOffset : Nat → Nat → Nat
  rszePos : 0 < maxRSze
  reqsPos : 0 < maxReqs

/-- What gem5 says of packets that are made for a block, whose size is an `int`: the packet
covers the block, with the bits of the offset cleared from the address of the request. -/
structure NdpParams.BlockPackets (params : NdpParams) : Prop where
  newPacket : ∀ addr size, 0 < size → size < 2 ^ 31 →
    params.newPacket addr size = (addr &&& (2 ^ 64 - size), size)
  getOffset : ∀ addr size, 0 < size → size < 2 ^ 31 →
    params.getOffset addr size = addr &&& (size - 1)

structure AddrRange where
  start : Nat
  stop : Nat
deriving DecidableEq

structure SubRequest where
  addrRange : AddrRange
  offset : Nat
deriving DecidableEq

structure BurstRequest where
  /-- Which object it is. -/
  id : Nat
  addrRange : AddrRange
  data : Nat → UInt8
  writeRequest : Bool
  pendingSubRequests : List SubRequest

structure Packet where
  addr : Nat
  size : Nat
  write : Bool
  data : Nat → UInt8

def Packet.getAddrRange (pkt : Packet) : AddrRange := ⟨pkt.addr, (pkt.addr + pkt.size) % 2 ^ 64⟩

/-- A call of `accessMemory`, with the port's answer should it send a packet at once. -/
structure Access where
  addr : Nat
  size : Nat
  write : Bool
  data : Nat → UInt8
  accepted : Bool

inductive Event
  /-- A run of `sendData` with so many packets queued and so many requests in flight. -/
  | sendData (queued flying : Nat)
  | created (burst : Nat) (write : Bool) (subRequests : List SubRequest)
  | retired (burst : Nat) (sub : SubRequest) (data : Nat → UInt8)
  | recvData (burst : BurstRequest)

structure Engine where
  dmaActv : Bool := false
  flyReqs : Nat := 0
  pendingRequests : List BurstRequest := []
  pendingReqPackets : List Packet := []
  nextBurst : Nat := 0
  /-- The packets that the port has taken and not yet answered. -/
  inFlight : List Packet := []
  /-- The send events in the event queue. -/
  scheduled : Nat := 0
  /-- The port has refused a packet and will ask for it again. -/
  retryOwed : Bool := false

section Functions

variable (params : NdpParams)

/-! ## Sending -/

/-- The queue's first packet is undefined if there is none, and the run is rejected. -/
def sendData (accepted : Bool) : Prog Engine Event Unit := do
  let s ← Prog.get
  Prog.emit (.sendData s.pendingReqPackets.length s.flyReqs)
  if s.flyReqs = params.maxReqs then Prog.modify fun s => { s with dmaActv := false }
  else
    match s.pendingReqPackets with
    | [] => Prog.require false
    | pkt :: packets =>
      if accepted then
        Prog.modify fun s =>
          { s with
            flyReqs := s.flyReqs + 1
            pendingReqPackets := packets
            inFlight := s.inFlight ++ [pkt]
            scheduled := if packets.isEmpty then s.scheduled else s.scheduled + 1
            dmaActv := if packets.isEmpty then false else s.dmaActv }
      else Prog.modify fun s => { s with retryOwed := true }

/-! ## Bursts -/

def subRequestSize (size n : Nat) : Nat :=
  if size < (n * params.maxRSze + params.maxRSze) % 2 ^ 64 then size % params.maxRSze
  else params.maxRSze

def splitLoop (addr size : Nat) : Nat → Nat → Nat → Option (List SubRequest)
  | 0, _, _ => none
  | rounds + 1, saddr, n =>
    if saddr < (addr + size) % 2 ^ 64 then
      (splitLoop addr size rounds ((saddr + params.maxRSze) % 2 ^ 64) (n + 1)).map
        (⟨⟨saddr, (saddr + subRequestSize params size n) % 2 ^ 64⟩, n * params.maxRSze⟩ :: ·)
    else some []

/-- A loop that is not done after as many rounds as there are addresses never ends. -/
def split (addr size : Nat) : Option (List SubRequest) :=
  splitLoop params addr size (2 ^ 64 + 1) addr 0

def SubRequest.size (sub : SubRequest) : Nat :=
  (sub.addrRange.stop + 2 ^ 64 - sub.addrRange.start) % 2 ^ 64

def SubRequest.packet (sub : SubRequest) (write : Bool) (data : Nat → UInt8) : Packet where
  addr := (params.newPacket sub.addrRange.start sub.size).1
  size := (params.newPacket sub.addrRange.start sub.size).2
  write := write
  data := if write then fun i => data (sub.offset + i) else fun _ => 0

def SubRequest.copies (sub : SubRequest) (write : Bool) : Bool := !write || sub.size < 2 ^ 31

/-- Rejected if the loop does not end, and if the copying into a packet is undefined. -/
def accessMemory (call : Access) : Prog Engine Event Unit := do
  match split params call.addr call.size with
  | none => Prog.require false
  | some subRequests => do
    Prog.require (subRequests.all fun sub => sub.copies call.write)
    let s ← Prog.get
    Prog.emit (.created s.nextBurst call.write subRequests)
    Prog.modify fun s =>
      { s with
        nextBurst := s.nextBurst + 1
        pendingRequests := s.pendingRequests ++
          [⟨s.nextBurst, ⟨call.addr, (call.addr + call.size) % 2 ^ 64⟩, call.data, call.write,
            subRequests⟩]
        pendingReqPackets := s.pendingReqPackets ++
          subRequests.map fun sub => sub.packet params call.write call.data }
    if s.dmaActv then pure ()
    else do
      Prog.modify fun s => { s with dmaActv := true }
      sendData params call.accepted

def accessAll : List Access → Prog Engine Event Unit
  | [] => pure ()
  | call :: calls => do
    accessMemory params call
    accessAll calls

/-! ## Responses -/

def BurstRequest.popPendingSubRequest (b : BurstRequest) (range : AddrRange) :
    Option (SubRequest × BurstRequest) :=
  (b.pendingSubRequests.find? fun sub => sub.addrRange = range).map fun sub =>
    (sub, { b with pendingSubRequests := b.pendingSubRequests.erase sub })

/-- The buffer after `writeDataToBlock` at the sub-request's pointer, if it is a read. -/
def BurstRequest.receive (b : BurstRequest) (sub : SubRequest) (pkt : Packet)
    (data : Nat → UInt8) : BurstRequest :=
  if pkt.write then b
  else
    let place := sub.offset + params.getOffset pkt.addr pkt.size
    { b with data := ByteMem.store b.data place pkt.size data }

def Engine.replace (s : Engine) (b : BurstRequest) : Engine :=
  { s with pendingRequests := s.pendingRequests.map fun c => if c.id = b.id then b else c }

def Engine.remove (s : Engine) (id : Nat) : Engine :=
  { s with pendingRequests := s.pendingRequests.filter fun c => c.id ≠ id }

/-- The loop over the pending bursts. It is left only when a burst is complete. -/
def scan (pkt : Packet) (data : Nat → UInt8) (calls : List Access) :
    List BurstRequest → Prog Engine Event Unit
  | [] => pure ()
  | b :: bursts =>
    if b.writeRequest = pkt.write then
      match b.popPendingSubRequest pkt.getAddrRange with
      | none => scan pkt data calls bursts
      | some (sub, popped) => do
        let received := popped.receive params sub pkt data
        Prog.modify fun s => s.replace received
        Prog.emit (.retired b.id sub data)
        if received.pendingSubRequests.isEmpty then do
          Prog.emit (.recvData received)
          accessAll params calls
          Prog.modify fun s => s.remove b.id
        else scan pkt data calls bursts
    else scan pkt data calls bursts

def finishResponse (index : Nat) (accepted : Bool) : Prog Engine Event Unit := do
  Prog.modify fun s =>
    { s with flyReqs := s.flyReqs - 1, inFlight := s.inFlight.eraseIdx index }
  let s ← Prog.get
  if !s.dmaActv && !s.pendingReqPackets.isEmpty then do
    Prog.modify fun s => { s with dmaActv := true }
    sendData params accepted
  else pure ()

/-- The response to the packet at this index of those in flight. -/
def memCallback (index : Nat) (data : Nat → UInt8) (calls : List Access) (accepted : Bool) :
    Prog Engine Event Unit := do
  let s ← Prog.get
  match s.inFlight[index]? with
  | none => Prog.require false
  | some pkt => do
    scan params pkt data calls s.pendingRequests
    finishResponse params index accepted

/-! ## Runs -/

inductive Step
  | access (call : Access)
  | sendEvent (accepted : Bool)
  | retry (accepted : Bool)
  | response (index : Nat) (data : Nat → UInt8) (calls : List Access) (accepted : Bool)

def perform : Step → Prog Engine Event Unit
  | .access call => accessMemory params call
  | .sendEvent accepted => do
    Prog.modify fun s => { s with scheduled := s.scheduled - 1 }
    sendData params accepted
  | .retry accepted => do
    Prog.modify fun s => { s with retryOwed := false }
    sendData params accepted
  | .response index data calls accepted => memCallback params index data calls accepted

structure History where
  engine : Engine := {}
  log : List Event := []

def History.next (h : History) (step : Step) : History where
  engine := (perform params step h.engine).state
  log := h.log ++ (perform params step h.engine).trace

end Functions

def Step.accesses : Step → List Access
  | .access call => [call]
  | .sendEvent _ => []
  | .retry _ => []
  | .response _ _ calls _ => calls

/-- What the port and the event queue can do, and accesses of some size. -/
def Legal (h : History) (step : Step) : Prop :=
  (∀ call ∈ step.accesses, 0 < call.size ∧ call.addr < 2 ^ 64 ∧ call.size < 2 ^ 64) ∧
    match step with
    | .access _ => True
    | .sendEvent _ => 0 < h.engine.scheduled
    | .retry _ => h.engine.retryOwed = true
    | .response index _ _ _ => index < h.engine.inFlight.length

/-! ## Bursts that do not wrap around -/

section Split

variable (params : NdpParams)

def subRequestCount (size : Nat) : Nat := (size + params.maxRSze - 1) / params.maxRSze

/-- Rounded up to whole requests, the range ends before the last address, and an `int`
counts the bytes of every request that is copied. -/
def Access.Fits (call : Access) : Prop :=
  call.addr + subRequestCount params call.size * params.maxRSze < 2 ^ 64 ∧
    (call.write = true → min params.maxRSze call.size < 2 ^ 31)

instance (call : Access) : Decidable (call.Fits params) := inferInstanceAs (Decidable (_ ∧ _))

def Access.Aligned (call : Access) : Prop :=
  ∀ n < subRequestCount params call.size, (call.addr + n * params.maxRSze) &&&
    (min params.maxRSze (call.size - n * params.maxRSze) - 1) = 0

instance (call : Access) : Decidable (call.Aligned params) :=
    inferInstanceAs (Decidable (∀ _ < _, _))

def subRequestAt (addr size n : Nat) : SubRequest where
  addrRange := ⟨addr + n * params.maxRSze,
    addr + n * params.maxRSze + min params.maxRSze (size - n * params.maxRSze)⟩
  offset := n * params.maxRSze

theorem lt_subRequestCount {size n : Nat} : n < subRequestCount params size ↔
    n * params.maxRSze < size := by
  have hPos := params.rszePos
  unfold subRequestCount
  rw [Nat.lt_iff_add_one_le, Nat.le_div_iff_mul_le hPos, Nat.add_mul]
  omega

theorem size_le_subRequestCount (size : Nat) :
    size ≤ subRequestCount params size * params.maxRSze := by
  by_contra hLess
  have hAgain : subRequestCount params size < subRequestCount params size :=
    (lt_subRequestCount params).mpr (by omega)
  exact absurd hAgain (lt_irrefl _)

theorem subRequestSize_eq {size n : Nat} (hn : n < subRequestCount params size)
    (hFits : subRequestCount params size * params.maxRSze < 2 ^ 64) :
    subRequestSize params size n = min params.maxRSze (size - n * params.maxRSze) := by
  have hStart := (lt_subRequestCount params).mp hn
  have hEnd : n * params.maxRSze + params.maxRSze ≤
      subRequestCount params size * params.maxRSze := by
    rw [← Nat.succ_mul]
    exact Nat.mul_le_mul_right _ hn
  unfold subRequestSize
  rw [Nat.mod_eq_of_lt (by omega)]
  split
  · -- The last request, of what is left.
    have hRest : size % params.maxRSze = size - n * params.maxRSze := by
      have hSplit : size = size - n * params.maxRSze + n * params.maxRSze := by omega
      conv_lhs => rw [hSplit, Nat.add_mul_mod_self_right]
      exact Nat.mod_eq_of_lt (by omega)
    omega
  · omega

theorem splitLoop_eq {addr size : Nat}
    (hFits : addr + subRequestCount params size * params.maxRSze < 2 ^ 64) {rounds n k : Nat}
    (hCount : n + k = subRequestCount params size) (hRounds : k < rounds) :
    splitLoop params addr size rounds (addr + n * params.maxRSze) n =
      some ((List.range' n k).map (subRequestAt params addr size)) := by
  have hSize := size_le_subRequestCount params size
  induction k generalizing n rounds with
  | zero =>
    obtain ⟨rounds, rfl⟩ := Nat.exists_eq_add_of_lt hRounds
    have hDone : ¬n * params.maxRSze < size := by
      rw [← lt_subRequestCount]
      omega
    rw [Nat.zero_add, splitLoop, Nat.mod_eq_of_lt (by omega), if_neg (by omega)]
    rfl
  | succ k ih =>
    obtain ⟨rounds, rfl⟩ := Nat.exists_eq_add_of_lt hRounds
    have hn : n < subRequestCount params size := by omega
    have hStart := (lt_subRequestCount params).mp hn
    have hEnd : (n + 1) * params.maxRSze ≤ subRequestCount params size * params.maxRSze :=
      Nat.mul_le_mul_right _ hn
    have hNext : (addr + n * params.maxRSze + params.maxRSze) % 2 ^ 64 =
        addr + (n + 1) * params.maxRSze := by
      rw [Nat.succ_mul] at hEnd ⊢
      rw [Nat.mod_eq_of_lt (by omega)]
      omega
    rw [splitLoop, Nat.mod_eq_of_lt (by omega : addr + size < 2 ^ 64), if_pos (by omega), hNext,
      ih (by omega) (by omega), subRequestSize_eq params hn (by omega), List.range'_succ,
      List.map_cons, Nat.mod_eq_of_lt (by omega)]
    rfl

theorem split_eq {addr size : Nat}
    (hEnd : addr + subRequestCount params size * params.maxRSze < 2 ^ 64) :
    split params addr size =
      some ((List.range (subRequestCount params size)).map (subRequestAt params addr size)) := by
  have hCount : subRequestCount params size ≤ subRequestCount params size * params.maxRSze :=
    Nat.le_mul_of_pos_right _ params.rszePos
  have hLoop := @splitLoop_eq params _ _ hEnd (2 ^ 64 + 1) 0 _ (Nat.zero_add _) (by omega)
  rw [Nat.zero_mul, Nat.add_zero, ← List.range_eq_range'] at hLoop
  exact hLoop

end Split

/-! ## Sub-requests of one burst -/

theorem SubRequest.size_eq {sub : SubRequest}
    (h : sub.addrRange.start ≤ sub.addrRange.stop ∧ sub.addrRange.stop < 2 ^ 64) :
    sub.size = sub.addrRange.stop - sub.addrRange.start := by
  unfold SubRequest.size
  omega

section Consecutive

variable {params : NdpParams} {addr size : Nat}
  (hFits : addr + subRequestCount params size * params.maxRSze < 2 ^ 64)

include hFits

theorem subRequestAt_range {n : Nat} (hn : n < subRequestCount params size) :
    (subRequestAt params addr size n).addrRange.start ≤
        (subRequestAt params addr size n).addrRange.stop ∧
      (subRequestAt params addr size n).addrRange.stop < 2 ^ 64 := by
  have hEnd : n * params.maxRSze + params.maxRSze ≤
      subRequestCount params size * params.maxRSze := by
    rw [← Nat.succ_mul]
    exact Nat.mul_le_mul_right _ hn
  unfold subRequestAt
  dsimp only
  omega

theorem subRequestAt_size {n : Nat} (hn : n < subRequestCount params size) :
    (subRequestAt params addr size n).size = min params.maxRSze (size - n * params.maxRSze) := by
  rw [SubRequest.size_eq (subRequestAt_range hFits hn)]
  unfold subRequestAt
  dsimp only
  omega

theorem subRequestAt_apart {n k : Nat} (hLess : n < k) (hk : k < subRequestCount params size) :
    (subRequestAt params addr size n).offset + (subRequestAt params addr size n).size ≤
        (subRequestAt params addr size k).offset ∧
      (subRequestAt params addr size n).addrRange ≠
        (subRequestAt params addr size k).addrRange := by
  have hNext : n * params.maxRSze + params.maxRSze ≤ k * params.maxRSze := by
    rw [← Nat.succ_mul]
    exact Nat.mul_le_mul_right _ hLess
  have hPos := params.rszePos
  constructor
  · rw [subRequestAt_size hFits (by omega)]
    unfold subRequestAt
    dsimp only
    omega
  · intro hSame
    have hStart := congrArg AddrRange.start hSame
    unfold subRequestAt at hStart
    dsimp only at hStart
    omega

end Consecutive

theorem NdpParams.BlockPackets.keeps_iff {params : NdpParams} (h : params.BlockPackets)
    {addr size : Nat} (hAddr : addr < 2 ^ 64) (hSize : 0 < size) (hInt : size < 2 ^ 31) :
    params.newPacket addr size = (addr, size) ↔ addr &&& (size - 1) = 0 := by
  have hMask : 2 ^ 64 - size = 2 ^ 64 - (size - 1 + 1) := by omega
  rw [h.newPacket addr size hSize hInt, Prod.mk.injEq, and_iff_left rfl, hMask]
  exact and_blockMask_eq_self_iff hAddr (by omega)

theorem copies_of_fits {params : NdpParams} {call : Access} (h : call.Fits params) :
    (((List.range (subRequestCount params call.size)).map
      (subRequestAt params call.addr call.size)).all fun sub => sub.copies call.write) = true := by
  obtain ⟨hEnd, hCopied⟩ := h
  rw [List.all_map, List.all_eq_true]
  intro n hn
  rw [Function.comp_apply, SubRequest.copies, subRequestAt_size hEnd (List.mem_range.mp hn)]
  cases hWrite : call.write with
  | false => rfl
  | true =>
    have hLess := hCopied hWrite
    rw [Bool.not_true, Bool.false_or, decide_eq_true_eq]
    omega

end OpenNpux.Ndp
