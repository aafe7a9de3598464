import Mathlib.Data.List.Forall2
import OpenNpux.Ndp.Responses

/-!
# A burst is cut into its sub-requests

The loop advances its address by whole requests and compares it with the end of the
range. It stops after the last request only if that sum stays below the end of the address
space; otherwise it goes on from the wrapped address. The sub-requests of a burst that fits
are pieces of its range, and each packet of a write carries the bytes of its piece. A packet
is made for a block, so it has the range of its sub-request only if that starts a block.
-/

namespace OpenNpux.Ndp

open Lib

variable (params : NdpParams)

def SubRequest.piece (sub : SubRequest) : Nat × Nat := (sub.addrRange.start, sub.addrRange.stop)

structure Carries (call : Access) (sub : SubRequest) (pkt : Packet) : Prop where
  addr : pkt.addr = sub.addrRange.start
  size : pkt.size = sub.addrRange.stop - sub.addrRange.start
  kind : pkt.write = call.write
  bytes : call.write = true → ∀ i < pkt.size,
    pkt.data i = call.data (sub.addrRange.start - call.addr + i)

structure Partitions (call : Access) (subs : List SubRequest) (pkts : List Packet) : Prop where
  consecutive : Pieces (fun start stop => stop - start ≤ params.maxRSze) call.addr
    (call.addr + call.size) (subs.map SubRequest.piece)
  once : ∀ x, Pieces.holding x (subs.map SubRequest.piece) =
    if call.addr ≤ x ∧ x < call.addr + call.size then 1 else 0
  rounds : subs.length = subRequestCount params call.size
  offsets : ∀ sub ∈ subs, sub.offset = sub.addrRange.start - call.addr
  packets : List.Forall₂ (Carries call) subs pkts

/-- The access returns with one more burst, cut exactly, and its packets behind the others. -/
def SplitsExactly (call : Access) (s : Engine) : Prop :=
  ∃ subs pkts, Partitions params call subs pkts ∧
    (accessMemory params call s).result = some () ∧
    (accessMemory params call s).state.pendingRequests = s.pendingRequests ++
      [⟨s.nextBurst, ⟨call.addr, call.addr + call.size⟩, call.data, call.write, subs⟩] ∧
    (accessMemory params call s).state.packets = s.packets ++ pkts

variable {params}

/-! ## The sub-requests of a burst that fits -/

theorem subRequests_pieces {addr size n k : Nat} (hCount : n + k = subRequestCount params size) :
    Pieces (fun start stop => stop - start ≤ params.maxRSze) (addr + min (n * params.maxRSze) size)
      (addr + size) (((List.range' n k).map (subRequestAt params addr size)).map
        SubRequest.piece) := by
  induction k generalizing n with
  | zero =>
    have hDone : ¬n * params.maxRSze < size := by
      rw [← lt_subRequestCount]
      omega
    rw [min_eq_right (by omega)]
    exact .nil _
  | succ k ih =>
    have hStart : n * params.maxRSze < size := (lt_subRequestCount params).mp (by omega)
    have hPos := params.rszePos
    have hRest := @ih (n + 1) (by omega)
    have hNext : addr + min ((n + 1) * params.maxRSze) size =
        addr + n * params.maxRSze + min params.maxRSze (size - n * params.maxRSze) := by
      rw [Nat.succ_mul]
      omega
    rw [hNext] at hRest
    rw [min_eq_left (Nat.le_of_lt hStart), List.range'_succ]
    have hSome : addr + n * params.maxRSze <
        addr + n * params.maxRSze + min params.maxRSze (size - n * params.maxRSze) := by omega
    have hShort : addr + n * params.maxRSze + min params.maxRSze (size - n * params.maxRSze) -
        (addr + n * params.maxRSze) ≤ params.maxRSze := by omega
    exact .cons hSome hShort hRest

theorem packet_carries_iff (hPackets : params.BlockPackets) {call : Access} {n : Nat}
    (hn : n < subRequestCount params call.size) (hFits : call.Fits params)
    (hInt : min params.maxRSze call.size < 2 ^ 31) :
    Carries call (subRequestAt params call.addr call.size n)
        ((subRequestAt params call.addr call.size n).packet params call.write call.data) ↔
      (call.addr + n * params.maxRSze) &&&
        (min params.maxRSze (call.size - n * params.maxRSze) - 1) = 0 := by
  have hPlace : (subRequestAt params call.addr call.size n).addrRange.start - call.addr =
      (subRequestAt params call.addr call.size n).offset := Nat.add_sub_cancel_left _ _
  have hRange := subRequestAt_range hFits.1 hn
  have hStart := (lt_subRequestCount params).mp hn
  have hPos := params.rszePos
  have hKeeps := @NdpParams.BlockPackets.keeps_iff params hPackets
    (subRequestAt params call.addr call.size n).addrRange.start
    (min params.maxRSze (call.size - n * params.maxRSze)) (by omega) (by omega) (by omega)
  rw [← subRequestAt_size hFits.1 hn] at hKeeps
  constructor
  · intro h
    rw [← subRequestAt_size hFits.1 hn]
    have hLength := h.size
    rw [← SubRequest.size_eq hRange] at hLength
    exact hKeeps.mp (Prod.ext h.addr hLength)
  · intro h
    rw [← subRequestAt_size hFits.1 hn] at h
    have hSame := hKeeps.mpr h
    constructor
    · exact congrArg Prod.fst hSame
    · exact (congrArg Prod.snd hSame).trans (SubRequest.size_eq hRange)
    · rfl
    · intro hWrite i _
      rw [SubRequest.packet, if_pos hWrite, hPlace]

theorem partitions_of_fits (hPackets : params.BlockPackets) {call : Access}
    (hFits : call.Fits params) (hInt : min params.maxRSze call.size < 2 ^ 31)
    (hAligned : call.Aligned params) :
    Partitions params call
      ((List.range (subRequestCount params call.size)).map
        (subRequestAt params call.addr call.size))
      (((List.range (subRequestCount params call.size)).map
        (subRequestAt params call.addr call.size)).map
          fun sub => sub.packet params call.write call.data) := by
  have hPieces := @subRequests_pieces params call.addr call.size 0 _ (Nat.zero_add _)
  rw [Nat.zero_mul, Nat.zero_min, Nat.add_zero, ← List.range_eq_range'] at hPieces
  refine ⟨hPieces, hPieces.holding_eq, ?_, ?_, ?_⟩
  · rw [List.length_map, List.length_range]
  · intro sub hSub
    obtain ⟨n, -, rfl⟩ := List.mem_map.mp hSub
    exact (Nat.add_sub_cancel_left _ _).symm
  · rw [List.forall₂_map_right_iff, List.forall₂_same]
    intro sub hSub
    obtain ⟨n, hn, rfl⟩ := List.mem_map.mp hSub
    have hn := List.mem_range.mp hn
    exact (packet_carries_iff hPackets hn hFits hInt).mpr (hAligned n hn)

/-! ## The run of an access -/

theorem sendData_queue {s : Engine} (hQueue : s.pendingReqPackets ≠ []) (accepted : Bool) :
    (sendData params accepted).Runs (fun _ => True) s fun _ s' =>
      s'.pendingRequests = s.pendingRequests ∧ s'.packets = s.packets := by
  obtain ⟨pkt, packets, hFirst⟩ := List.exists_cons_of_ne_nil hQueue
  refine .get_bind (.emit_bind trivial ?_)
  split
  · exact .modify ⟨rfl, rfl⟩
  · rw [hFirst]
    cases accepted with
    | false => exact .modify ⟨rfl, rfl⟩
    | true =>
      refine .modify ⟨rfl, ?_⟩
      rw [Engine.packets, Engine.packets, hFirst]
      exact List.append_assoc _ _ _

theorem accessMemory_queue {call : Access} {subs : List SubRequest}
    (hSplit : split params call.addr call.size = some subs) (hSome : subs ≠ [])
    (hCopies : (subs.all fun sub => sub.copies call.write) = true) (s : Engine) :
    (accessMemory params call).Runs (fun _ => True) s fun _ s' =>
      s'.pendingRequests = (s.withBurst params call subs).pendingRequests ∧
        s'.packets = s.packets ++ subs.map fun sub => sub.packet params call.write call.data := by
  have hQueued : (s.withBurst params call subs).pendingReqPackets ≠ [] := by
    simp [Engine.withBurst, hSome]
  have hPackets : (s.withBurst params call subs).packets =
      s.packets ++ subs.map fun sub => sub.packet params call.write call.data :=
    (List.append_assoc _ _ _).symm
  unfold accessMemory
  rw [hSplit]
  dsimp only
  rw [hCopies, Prog.require_true_bind]
  refine .get_bind (.emit_bind trivial (.modify_bind ?_))
  cases s.dmaActv with
  | true => exact .pure ⟨rfl, hPackets⟩
  | false =>
    refine .modify_bind ((sendData_queue ?_ _).mono ?_)
    · exact hQueued
    · rintro _ s' ⟨hBursts, hSame⟩
      exact ⟨hBursts, hSame.trans hPackets⟩

theorem withBurst_subs {call : Access} {made subs : List SubRequest} {s : Engine}
    {range : AddrRange} (h : (s.withBurst params call made).pendingRequests =
      s.pendingRequests ++ [⟨s.nextBurst, range, call.data, call.write, subs⟩]) : made = subs := by
  have hLast := List.append_cancel_left h
  injection hLast with hBurst
  injection hBurst

theorem accessMemory_rejects {call : Access} {subs : List SubRequest}
    (hSplit : split params call.addr call.size = some subs)
    (hCopies : (subs.all fun sub => sub.copies call.write) = false) (s : Engine) :
    (accessMemory params call s).result = none := by
  unfold accessMemory
  rw [hSplit]
  dsimp only
  rw [hCopies]
  rfl

theorem accessMemory_endless {call : Access} (hSplit : split params call.addr call.size = none)
    (s : Engine) : (accessMemory params call s).result = none := by
  unfold accessMemory
  rw [hSplit]
  rfl

theorem splitsExactly_of_fits (hPackets : params.BlockPackets) {call : Access}
    (hSize : 0 < call.size) (hEnd : call.addr + call.size < 2 ^ 64) (hFits : call.Fits params)
    (hInt : min params.maxRSze call.size < 2 ^ 31) (hAligned : call.Aligned params) (s : Engine) :
    SplitsExactly params call s := by
  obtain ⟨-, _, hResult, hBursts, hQueue⟩ :=
    accessMemory_queue (split_eq params hFits.1) (subRequests_ne_nil hSize) (copies_of_fits hFits) s
  refine ⟨_, _, partitions_of_fits hPackets hFits hInt hAligned, hResult, ?_, hQueue⟩
  rw [hBursts, Engine.withBurst, Nat.mod_eq_of_lt hEnd]

/-! ## Bursts that do not fit -/

theorem splitLoop_longer {addr size : Nat} (hMax : params.maxRSze < 2 ^ 64)
    (hEnd : addr + size < 2 ^ 64)
    (hOver : 2 ^ 64 ≤ addr + subRequestCount params size * params.maxRSze) {rounds n k : Nat}
    (hCount : n + k = subRequestCount params size) {subs : List SubRequest}
    (h : splitLoop params addr size rounds ((addr + n * params.maxRSze) % 2 ^ 64) n = some subs) :
    k < subs.length := by
  induction k generalizing n rounds subs with
  | zero =>
    have hWrapped : (addr + n * params.maxRSze) % 2 ^ 64 < addr + size := by
      cases n with
      | zero =>
        rw [← hCount, Nat.add_zero, Nat.zero_mul] at hOver
        omega
      | succ n =>
        have hStart : n * params.maxRSze < size := (lt_subRequestCount params).mp (by omega)
        rw [← hCount, Nat.add_zero, Nat.succ_mul] at hOver
        rw [Nat.succ_mul]
        omega
    cases rounds with
    | zero => cases h
    | succ rounds =>
      rw [splitLoop, Nat.mod_eq_of_lt hEnd, if_pos hWrapped] at h
      obtain ⟨rest, -, rfl⟩ := Option.map_eq_some_iff.mp h
      exact Nat.succ_pos _
  | succ k ih =>
    have hStart : n * params.maxRSze < size := (lt_subRequestCount params).mp (by omega)
    have hNext : ((addr + n * params.maxRSze) % 2 ^ 64 + params.maxRSze) % 2 ^ 64 =
        (addr + (n + 1) * params.maxRSze) % 2 ^ 64 := by
      rw [Nat.mod_add_mod, Nat.succ_mul, Nat.add_assoc]
    cases rounds with
    | zero => cases h
    | succ rounds =>
      rw [splitLoop, Nat.mod_eq_of_lt hEnd,
        if_pos (by rw [Nat.mod_eq_of_lt (by omega)]; omega), hNext] at h
      obtain ⟨rest, hRest, rfl⟩ := Option.map_eq_some_iff.mp h
      exact Nat.succ_lt_succ (ih (by omega) hRest)

theorem fits_of_splitsExactly (hMax : params.maxRSze < 2 ^ 64) {call : Access}
    (hSize : 0 < call.size) (hEnd : call.addr + call.size < 2 ^ 64) {s : Engine}
    (h : SplitsExactly params call s) : call.Fits params := by
  obtain ⟨subs, pkts, hPartitions, hResult, hBursts, -⟩ := h
  cases hSplit : split params call.addr call.size with
  | none =>
    rw [accessMemory_endless hSplit] at hResult
    cases hResult
  | some made =>
    cases hCopies : made.all fun sub => sub.copies call.write with
    | false =>
      rw [accessMemory_rejects hSplit hCopies] at hResult
      cases hResult
    | true =>
      have hAddr : call.addr + subRequestCount params call.size * params.maxRSze < 2 ^ 64 := by
        by_contra hOver
        have hLoop : splitLoop params call.addr call.size (2 ^ 64 + 1)
            ((call.addr + 0 * params.maxRSze) % 2 ^ 64) 0 = some made := by
          rw [Nat.zero_mul, Nat.add_zero, Nat.mod_eq_of_lt (by omega)]
          exact hSplit
        have hLonger : subRequestCount params call.size < made.length :=
          splitLoop_longer hMax hEnd (Nat.le_of_not_lt hOver) (Nat.zero_add _) hLoop
        have hSome : made ≠ [] := List.ne_nil_of_length_pos (by omega)
        obtain ⟨-, _, -, hMade, -⟩ := accessMemory_queue hSplit hSome hCopies s
        have hSame : made = subs := withBurst_subs (hMade.symm.trans hBursts)
        have hRounds := hPartitions.rounds
        rw [hSame] at hLonger
        omega
      refine ⟨hAddr, fun hWrite => ?_⟩
      have hFirst : 0 < subRequestCount params call.size :=
        (lt_subRequestCount params).mpr (by omega)
      rw [split_eq params hAddr, Option.some.injEq] at hSplit
      have hCopied := List.all_eq_true.mp hCopies (subRequestAt params call.addr call.size 0)
        (hSplit ▸ List.mem_map_of_mem (List.mem_range.mpr hFirst))
      rw [SubRequest.copies, subRequestAt_size hAddr hFirst, hWrite, Bool.not_true, Bool.false_or,
        decide_eq_true_eq, Nat.zero_mul, Nat.sub_zero] at hCopied
      exact hCopied

theorem aligned_of_splitsExactly (hPackets : params.BlockPackets) {call : Access}
    (hSize : 0 < call.size) (hFits : call.Fits params)
    (hInt : min params.maxRSze call.size < 2 ^ 31) {s : Engine} (h : SplitsExactly params call s) :
    call.Aligned params := by
  obtain ⟨subs, pkts, hPartitions, -, hBursts, hQueue⟩ := h
  obtain ⟨-, _, -, hMade, hSent⟩ :=
    accessMemory_queue (split_eq params hFits.1) (subRequests_ne_nil hSize) (copies_of_fits hFits) s
  -- The burst and its packets are the only ones that are new.
  obtain rfl := withBurst_subs (hMade.symm.trans hBursts)
  obtain rfl := List.append_cancel_left (hSent.symm.trans hQueue)
  have hEach := hPartitions.packets
  rw [List.forall₂_map_right_iff, List.forall₂_same] at hEach
  intro n hn
  exact (packet_carries_iff hPackets hn hFits hInt).mp
    (hEach _ (List.mem_map_of_mem (List.mem_range.mpr hn)))

/-- A read's packets must have a size that is an `int`: that a write's have is part of the
condition, since the copying fails first. -/
theorem splitsExactly_iff_fits (params : NdpParams) (hPackets : params.BlockPackets)
    (hMax : params.maxRSze < 2 ^ 64) (call : Access) (hSize : 0 < call.size)
    (hEnd : call.addr + call.size < 2 ^ 64)
    (hInt : call.write = false → min params.maxRSze call.size < 2 ^ 31) (s : Engine) :
    SplitsExactly params call s ↔ call.Fits params ∧ call.Aligned params := by
  have hBlock (hFits : call.Fits params) : min params.maxRSze call.size < 2 ^ 31 := by
    cases hWrite : call.write with
    | false => exact hInt hWrite
    | true => exact hFits.2 hWrite
  constructor
  · intro h
    have hFits := fits_of_splitsExactly hMax hSize hEnd h
    exact ⟨hFits, aligned_of_splitsExactly hPackets hSize hFits (hBlock hFits) h⟩
  · rintro ⟨hFits, hAligned⟩
    exact splitsExactly_of_fits hPackets hSize hEnd hFits (hBlock hFits) hAligned s

def threeLines : Access := ⟨64, 130, true, fun i => UInt8.ofNat i, true⟩

theorem splitsExactly_iff_fits_threeLines :
    (threeLines.Fits lineParams ∧ threeLines.Aligned lineParams) ∧
      SplitsExactly lineParams threeLines {} := by
  have hFits : threeLines.Fits lineParams ∧ threeLines.Aligned lineParams := by decide
  exact ⟨hFits, (splitsExactly_iff_fits lineParams lineParams_blockPackets (by decide) threeLines
    (by decide) (by decide) (by decide) {}).mpr hFits⟩

/-- From an address of the last line the loop never reaches the end of the range: every
multiple of the request size is below it. -/
theorem splitLoop_lastLine (rounds saddr n : Nat) (h : 64 ∣ saddr) (hAddr : saddr < 2 ^ 64) :
    splitLoop lineParams (2 ^ 64 - 64) 1 rounds saddr n = none := by
  induction rounds generalizing saddr n with
  | zero => rfl
  | succ rounds ih =>
    have hBelow : saddr < (2 ^ 64 - 64 + 1) % 2 ^ 64 := by omega
    have hNext : 64 ∣ (saddr + 64) % 2 ^ 64 := by omega
    have hRest := ih ((saddr + 64) % 2 ^ 64) (n + 1) hNext (Nat.mod_lt _ (by decide))
    rw [splitLoop, if_pos hBelow]
    change (splitLoop lineParams (2 ^ 64 - 64) 1 rounds ((saddr + 64) % 2 ^ 64) (n + 1)).map _ = _
    rw [hRest]
    rfl

/-- A read of one byte of the last line never returns, though its range does not wrap. -/
theorem lastLine_access_endless :
    (2 ^ 64 - 64) + 1 < 2 ^ 64 ∧
      (accessMemory lineParams (readAccess (2 ^ 64 - 64) 1) {}).result = none ∧
        ¬SplitsExactly lineParams (readAccess (2 ^ 64 - 64) 1) {} := by
  have hSplit : split lineParams (2 ^ 64 - 64) 1 = none :=
    splitLoop_lastLine _ (2 ^ 64 - 64) 0 (by decide) (by decide)
  have hNever : (accessMemory lineParams (readAccess (2 ^ 64 - 64) 1) {}).result = none :=
    @accessMemory_endless lineParams (readAccess (2 ^ 64 - 64) 1) hSplit {}
  refine ⟨by decide, hNever, ?_⟩
  rintro ⟨_, _, _, hResult, -⟩
  rw [hNever] at hResult
  cases hResult

end OpenNpux.Ndp
