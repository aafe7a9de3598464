import Mathlib.Data.List.Perm.Basic
import OpenNpux.Ndp.Responses

/-!
# Every response retires one sub-request

A response that the search gives to one burst moves one entry of the ledger: the
sub-request is retired with the data of the response, and a burst without a pending one is
handed over and forgotten. Over a run of such responses every burst is handed over once,
with a buffer made up of the data of its responses.
-/

namespace OpenNpux.Ndp

open Lib

variable {params : NdpParams}

/-! ## The list of bursts -/

section Bursts

variable {s : Engine} {b : BurstRequest} (hIds : (s.pendingRequests.map BurstRequest.id).Nodup)
  (hb : b ∈ s.pendingRequests)

include hIds hb

theorem bursts_around : ∃ before after, s.pendingRequests = before ++ b :: after ∧
    (∀ c ∈ before ++ after, c.id ≠ b.id) := by
  obtain ⟨before, after, hList⟩ := List.append_of_mem hb
  refine ⟨before, after, hList, ?_⟩
  rw [hList, List.map_append, List.map_cons] at hIds
  have hMoved := (List.perm_middle (a := b.id)).nodup_iff.mp hIds
  intro c hc hSame
  apply (List.nodup_cons.mp hMoved).1
  rw [← List.map_append, ← hSame]
  exact List.mem_map_of_mem hc

end Bursts

theorem replace_around {s : Engine} {b c : BurstRequest} {before after : List BurstRequest}
    (hList : s.pendingRequests = before ++ b :: after) (hId : c.id = b.id)
    (hOthers : ∀ d ∈ before ++ after, d.id ≠ b.id) :
    (s.replace c).pendingRequests = before ++ c :: after := by
  have hKept {l : List BurstRequest} (hl : ∀ d ∈ l, d.id ≠ b.id) :
      l.map (fun d => if d.id = c.id then c else d) = l := by
    conv_rhs => rw [← List.map_id l]
    exact List.map_congr_left fun d hd => if_neg (hId ▸ hl d hd)
  unfold Engine.replace
  dsimp only
  rw [hList, List.map_append, List.map_cons, if_pos hId.symm,
    hKept fun d hd => hOthers d (List.mem_append_left _ hd),
    hKept fun d hd => hOthers d (List.mem_append_right _ hd)]

theorem remove_around {s : Engine} {b : BurstRequest} {before after : List BurstRequest}
    (hList : s.pendingRequests = before ++ b :: after)
    (hOthers : ∀ d ∈ before ++ after, d.id ≠ b.id) :
    (s.remove b.id).pendingRequests = before ++ after := by
  have hKept {l : List BurstRequest} (hl : ∀ d ∈ l, d.id ≠ b.id) :
      l.filter (fun d => d.id ≠ b.id) = l :=
    List.filter_eq_self.mpr fun d hd => decide_eq_true (hl d hd)
  unfold Engine.remove
  dsimp only
  rw [hList, List.filter_append, List.filter_cons_of_neg (by simp),
    hKept fun d hd => hOthers d (List.mem_append_left _ hd),
    hKept fun d hd => hOthers d (List.mem_append_right _ hd)]

/-! ## One retirement -/

def SubRequest.Apart (sub sub' : SubRequest) : Prop :=
  sub.offset + sub.size ≤ sub'.offset ∨ sub'.offset + sub'.size ≤ sub.offset

theorem Cut.apart_of_perm {subs l : List SubRequest} (h : Cut params subs)
    (hPerm : l.Perm subs) : l.Pairwise SubRequest.Apart := by
  exact (hPerm.pairwise_iff fun {_ _} hApart => hApart.symm).mpr
    (h.apart.imp fun hApart => .inl hApart.1)

theorem packet_of_range {sub : SubRequest} {pkt : Packet}
    (hRange : sub.addrRange.start ≤ sub.addrRange.stop ∧ sub.addrRange.stop < 2 ^ 64)
    (hSame : sub.addrRange = pkt.getAddrRange) (hSize : pkt.size < 2 ^ 64) :
    pkt.addr = sub.addrRange.start ∧ pkt.size = sub.size := by
  have hStart : sub.addrRange.start = pkt.addr := congrArg AddrRange.start hSame
  have hStop : sub.addrRange.stop = (pkt.addr + pkt.size) % 2 ^ 64 :=
    congrArg AddrRange.stop hSame
  rw [SubRequest.size_eq hRange]
  omega

theorem retiredOf_retired (log : List Event) (id : Nat) (sub : SubRequest) (data : Bytes) :
    retiredOf (log ++ [.retired id sub data]) id = retiredOf log id ++ [(sub, data)] := by
  rw [retiredOf_append]
  simp [retiredOf]

theorem BurstRequest.Tracked.retire {log : List Event} {b : BurstRequest} {subs : List SubRequest}
    (h : b.Tracked params log subs) {sub : SubRequest} (hSub : sub ∈ b.pendingSubRequests)
    {pkt : Packet} (hWrite : b.writeRequest = pkt.write) (hRange : sub.addrRange = pkt.getAddrRange)
    (hSize : pkt.size < 2 ^ 64) (data : Bytes) :
    (b.retired params sub pkt data).Tracked params (log ++ [.retired b.id sub data]) subs := by
  have hMem : sub ∈ subs := h.shared.mem_iff.mp (List.mem_append_left _ hSub)
  obtain ⟨hAddr, hPktSize⟩ := packet_of_range (h.cut.ranges sub hMem) hRange hSize
  have hId : (b.retired params sub pkt data).id = b.id := receive_id _ _
  have hKind : (b.retired params sub pkt data).writeRequest = b.writeRequest := receive_write _ _
  have hPending : (b.retired params sub pkt data).pendingSubRequests =
      b.pendingSubRequests.erase sub := receive_pending _ _
  have hApart := h.cut.apart_of_perm h.shared
  constructor
  · rw [hId, hKind]
    exact List.mem_append_left _ h.created
  · exact h.cut
  · rw [hId, hPending, retiredOf_retired, List.map_append, ← List.append_assoc]
    refine List.Perm.trans ?_ h.shared
    refine List.perm_append_comm.trans ?_
    exact ((List.perm_cons_erase hSub).symm).append_right _
  · rw [hId, hKind, retiredOf_retired]
    intro hRead r hr i hi
    have hPktRead : pkt.write = false := hWrite.symm.trans hRead
    have hData : (b.retired params sub pkt data).data =
        ByteMem.store b.data sub.offset sub.size data := by
      unfold retired receive
      rw [hPktRead, hAddr, hPktSize, h.cut.placed sub hMem]
      rfl
    rw [hData]
    rcases List.mem_append.mp hr with hOld | hNew
    · -- The other responses' bytes are beside those of this one.
      have hBeside : sub.Apart r.1 :=
        (List.pairwise_append.mp hApart).2.2 sub hSub r.1 (List.mem_map_of_mem hOld)
      unfold SubRequest.Apart at hBeside
      rw [ByteMem.store_outside _ _ (by omega)]
      exact h.buffer hRead r hOld i hi
    · obtain rfl := List.mem_singleton.mp hNew
      dsimp only at hi ⊢
      rw [ByteMem.store_inside _ _ (by omega), Nat.add_sub_cancel_left]

def retireEvents (id : Nat) (sub : SubRequest) (data : Bytes) (handed : List BurstRequest) :
    List Event :=
  .retired id sub data :: handed.map .recvData

section Events

variable (id : Nat) (sub : SubRequest) (data : Bytes) (handed : List BurstRequest)

theorem creations_retireEvents : creations (retireEvents id sub data handed) = [] := by
  simp [retireEvents, creations, List.filterMap_map]

theorem deliveries_retireEvents :
    deliveries (retireEvents id sub data handed) = handed.map BurstRequest.id := by
  simp [retireEvents, deliveries, List.filterMap_map, List.filterMap_eq_map']

theorem retirements_retireEvents :
    retirements (retireEvents id sub data handed) = [(id, sub, data)] := by
  simp [retireEvents, retirements, List.filterMap_map]

theorem retiredOf_retireEvents (other : Nat) : retiredOf (retireEvents id sub data handed) other =
    if id = other then [(sub, data)] else [] := by
  by_cases hSame : id = other <;> simp [retireEvents, retiredOf, List.filterMap_map, hSame]

end Events

section Retire

variable {log : List Event} {s : Engine} {b : BurstRequest} {sub : SubRequest} {pkt : Packet}
  {before after : List BurstRequest}

/-! What one retirement does to the burst it goes to, and to any other. -/

section Tracked

variable {c : BurstRequest} {subs : List SubRequest} (handed : List BurstRequest)

theorem BurstRequest.Tracked.beside (h : c.Tracked params log subs) {id : Nat} (hNot : c.id ≠ id)
    (sub : SubRequest) (data : Bytes) :
    c.Tracked params (log ++ retireEvents id sub data handed) subs := by
  refine h.append ?_
  rw [retiredOf_retireEvents, if_neg hNot.symm]

theorem BurstRequest.Tracked.retired (h : b.Tracked params log subs)
    (hSub : sub ∈ b.pendingSubRequests) (hWrite : b.writeRequest = pkt.write)
    (hRange : sub.addrRange = pkt.getAddrRange) (hSize : pkt.size < 2 ^ 64) (data : Bytes) :
    (b.retired params sub pkt data).Tracked params
      (log ++ retireEvents b.id sub data handed) subs := by
  rw [retireEvents, List.append_cons]
  refine (h.retire hSub hWrite hRange hSize data).append ?_
  simp [retiredOf, List.filterMap_map]

end Tracked

variable (params) in
theorem keys_retired (hSub : sub ∈ b.pendingSubRequests) (hWrite : b.writeRequest = pkt.write)
    (hRange : sub.addrRange = pkt.getAddrRange) (data : Bytes) :
    ((b.retired params sub pkt data).keys ++ [pkt.key]).Perm b.keys := by
  have hPending : (b.retired params sub pkt data).pendingSubRequests =
      b.pendingSubRequests.erase sub := receive_pending _ _
  have hKind : (b.retired params sub pkt data).writeRequest = b.writeRequest := receive_write _ _
  unfold BurstRequest.keys Packet.key
  rw [hPending, hKind, ← hWrite, ← hRange]
  refine (List.perm_append_comm).trans ?_
  exact ((List.perm_cons_erase hSub).map fun sub => (b.writeRequest, sub.addrRange)).symm

inductive Passes (b : BurstRequest) : List BurstRequest → List BurstRequest → Prop
  | stays (hMore : b.pendingSubRequests ≠ []) : Passes b [b] []
  | leaves (hLast : b.pendingSubRequests = []) : Passes b [] [b]

section Passes

variable {kept handed : List BurstRequest} (h : Passes b kept handed)

include h

theorem Passes.keys : kept.flatMap BurstRequest.keys = b.keys := by
  cases h with
  | stays => exact List.flatMap_singleton _ _
  | leaves hLast => rw [BurstRequest.keys, hLast, List.map_nil, List.flatMap_nil]

theorem Passes.of_kept {c : BurstRequest} (hc : c ∈ kept) : c = b ∧ c.pendingSubRequests ≠ [] := by
  cases h with
  | stays hMore =>
    obtain rfl := List.mem_singleton.mp hc
    exact ⟨rfl, hMore⟩
  | leaves => cases hc

theorem Passes.of_handed {c : BurstRequest} (hc : c ∈ handed) :
    c = b ∧ c.pendingSubRequests = [] := by
  cases h with
  | stays => cases hc
  | leaves hLast =>
    obtain rfl := List.mem_singleton.mp hc
    exact ⟨rfl, hLast⟩

/-- The burst is among the pending ones or among those handed over, as it was. -/
theorem Passes.shared (before after : List BurstRequest) (delivered : List Nat) :
    ((before ++ (kept ++ after)).map BurstRequest.id ++
      (delivered ++ handed.map BurstRequest.id)).Perm
        ((before ++ b :: after).map BurstRequest.id ++ delivered) := by
  simp only [List.map_append, List.map_cons, List.append_assoc]
  refine List.Perm.append_left _ ?_
  cases h with
  | stays => simp
  | leaves =>
    rw [List.map_nil, List.nil_append, ← List.append_assoc]
    exact List.perm_append_comm

end Passes

theorem Ledger.delivered_ne {answered : List Key} (h : Ledger params answered log s)
    (hb : b ∈ s.pendingRequests) {c : BurstRequest} (hc : .recvData c ∈ log) : c.id ≠ b.id := by
  have hNodup := h.shared.nodup_iff.mpr h.once
  have hDelivered : c.id ∈ deliveries log := List.mem_filterMap.mpr ⟨_, hc, rfl⟩
  exact ((List.nodup_append.mp hNodup).2.2 _ (List.mem_map_of_mem hb) _ hDelivered).symm

/-- A response that goes to one burst moves one entry of the ledger. -/
theorem Ledger.retire (h : Ledger params [] log s)
    (hList : s.pendingRequests = before ++ b :: after)
    (hOthers : ∀ c ∈ before ++ after, c.id ≠ b.id) (hSub : sub ∈ b.pendingSubRequests)
    (hWrite : b.writeRequest = pkt.write) (hRange : sub.addrRange = pkt.getAddrRange)
    (hSize : pkt.size < 2 ^ 64) {data : Bytes} {kept handed : List BurstRequest}
    (hPasses : Passes (b.retired params sub pkt data) kept handed) :
    Ledger params [pkt.key] (log ++ retireEvents b.id sub data handed)
      { s with pendingRequests := before ++ (kept ++ after) } := by
  have hb : b ∈ s.pendingRequests := by simp [hList]
  have hId : (b.retired params sub pkt data).id = b.id := receive_id _ _
  have hCreations : creations (log ++ retireEvents b.id sub data handed) = creations log := by
    rw [creations_append, creations_retireEvents, List.append_nil]
  have hThis : ∃ subs, (b.retired params sub pkt data).Tracked params
      (log ++ retireEvents b.id sub data handed) subs := by
    obtain ⟨-, subs, hTracked⟩ := h.pending b hb
    exact ⟨subs, hTracked.retired handed hSub hWrite hRange hSize data⟩
  constructor
  · rw [hCreations]
    exact h.once
  · rw [hCreations]
    exact h.fresh
  · rw [hCreations, deliveries_append, deliveries_retireEvents]
    refine (hPasses.shared before after (deliveries log)).trans ?_
    have hShared := h.shared
    rw [hList] at hShared
    simpa only [List.map_append, List.map_cons, hId] using hShared
  · intro id
    rw [hCreations, retiredOf_append, retiredOf_retireEvents]
    intro hRetired
    by_cases hSame : b.id = id
    · exact hSame ▸ h.shared.mem_iff.mp (List.mem_append_left _ (List.mem_map_of_mem hb))
    · exact h.known id (by simpa [hSame] using hRetired)
  · intro c hc
    have hCases : c ∈ kept ∨ c ∈ before ++ after := by
      simp only [List.mem_append] at hc ⊢
      tauto
    rcases hCases with hKept | hRest
    · obtain ⟨rfl, hMore⟩ := hPasses.of_kept hKept
      exact ⟨hMore, hThis⟩
    · obtain ⟨hMore, subs, hSubs⟩ := h.pending c (by simp only [hList]; grind)
      exact ⟨hMore, subs, hSubs.beside handed (hOthers c hRest) sub data⟩
  · intro c hc
    rcases List.mem_append.mp hc with hOld | hNew
    · obtain ⟨hEmpty, subs, hSubs⟩ := h.delivered c hOld
      exact ⟨hEmpty, subs, hSubs.beside handed (h.delivered_ne hb hOld) sub data⟩
    · obtain ⟨rfl, hLast⟩ := hPasses.of_handed (by simpa [retireEvents] using hNew)
      exact ⟨hLast, hThis⟩
  · have hMatched := h.matched
    rw [List.append_nil] at hMatched
    refine List.Perm.trans ?_ hMatched
    unfold Engine.waits
    rw [hList]
    simp only [List.flatMap_append, List.flatMap_cons, List.append_assoc, hPasses.keys]
    refine List.Perm.append_left _ ?_
    refine List.Perm.trans ?_ ((keys_retired params hSub hWrite hRange data).append_right _)
    rw [List.append_assoc]
    exact (List.perm_append_comm).append_left _
  · exact h.sizes

end Retire

theorem Ledger.answer {pkt : Packet} {log : List Event} {s : Engine}
    (h : Ledger params [pkt.key] log s) {index : Nat} (hPkt : s.inFlight[index]? = some pkt)
    (flying : Nat) :
    Ledger params [] log { s with flyReqs := flying, inFlight := s.inFlight.eraseIdx index } := by
  obtain ⟨hIndex, hGet⟩ := List.getElem?_eq_some_iff.mp hPkt
  have hPackets : (pkt :: (s.inFlight.eraseIdx index ++ s.pendingReqPackets)).Perm s.packets := by
    have hFlight : (pkt :: s.inFlight.eraseIdx index).Perm s.inFlight := by
      rw [← hGet]
      exact List.getElem_cons_eraseIdx_perm hIndex
    exact hFlight.append_right s.pendingReqPackets
  refine ⟨h.once, h.fresh, h.shared, h.known, h.pending, h.delivered, ?_, ?_⟩
  · have hOwed := hPackets.map Packet.key
    have hBoth := (List.perm_append_comm.trans h.matched).trans hOwed.symm
    rw [List.append_nil]
    exact (List.perm_cons pkt.key).mp hBoth
  · intro other hOther
    exact h.sizes other (hPackets.mem_iff.mp (List.mem_cons_of_mem _ hOther))

/-! ## The callback does not see the burst -/

section Remove

variable {id : Nat}

theorem sendData_remove (accepted : Bool) :
    (sendData params accepted).Commutes (fun s => id < s.nextBurst) (Engine.remove · id) := by
  refine .get_bind (fun _ => rfl) fun s => .bind (.emit _) fun _ =>
    .ite (.modify fun _ h => ⟨h, rfl⟩) ?_
  cases s.pendingReqPackets with
  | nil => exact .require false
  | cons pkt packets => exact .ite (.modify fun _ h => ⟨h, rfl⟩) (.modify fun _ h => ⟨h, rfl⟩)

/-- A burst that is about to be forgotten is not one of those that the callback makes. -/
theorem accessAll_remove (calls : List Access) :
    (accessAll params calls).Commutes (fun s => id < s.nextBurst) (Engine.remove · id) := by
  induction calls with
  | nil => exact .pure ()
  | cons call calls ih =>
    refine .bind ?_ fun _ => ih
    unfold accessMemory
    cases split params call.addr call.size with
    | none => exact .require false
    | some subs =>
      refine .bind (.require _) fun _ => .get_bind (fun _ => rfl) fun s => .bind (.emit _) fun _ =>
        .bind (.modify fun s hs => ⟨Nat.lt_succ_of_lt hs, ?_⟩) fun _ => .ite (.pure ()) (.bind
          (.modify fun _ h => ⟨h, rfl⟩) fun _ => sendData_remove call.accepted)
      have hOther : s.nextBurst ≠ id := Nat.ne_of_gt hs
      simp [Engine.remove, hOther]

end Remove

/-! ## The program -/

structure Retires (t : List Event) (retired : List (Nat × SubRequest × Bytes))
    (handed : List Nat) : Prop where
  retirements : retirements t = retired
  deliveries : deliveries t = handed

theorem Retires.append_quiet {t t' : List Event} {retired : List (Nat × SubRequest × Bytes)}
    {handed : List Nat} (h : Retires t retired handed) (hQuiet : ∀ e ∈ t', e.Quiet) :
    Retires (t ++ t') retired handed where
  retirements := by
    rw [retirements_append, h.retirements, retirements_quiet hQuiet, List.append_nil]
  deliveries := by rw [deliveries_append, h.deliveries, deliveries_quiet hQuiet, List.append_nil]

theorem retires_of_quiet {t : List Event} (h : ∀ e ∈ t, e.Quiet) : Retires t [] [] :=
  ⟨retirements_quiet h, deliveries_quiet h⟩

section Response

variable {log : List Event} {s : Engine} {b : BurstRequest} {sub : SubRequest} {pkt : Packet}
  {data : Bytes} {calls : List Access}

theorem retire_more (hMore : (b.retired params sub pkt data).pendingSubRequests ≠ []) :
    retire params b sub pkt data calls s =
      ⟨some (), s.replace (b.retired params sub pkt data), retireEvents b.id sub data []⟩ := by
  unfold retire
  simp only [List.isEmpty_eq_false_iff.mpr hMore]
  rfl

theorem retire_last (hLast : (b.retired params sub pkt data).pendingSubRequests = [])
    (hFresh : b.id < s.nextBurst) {o : Outcome Engine Event Unit}
    (hCallback : accessAll params calls ((s.replace (b.retired params sub pkt data)).remove b.id) =
      o)
    (hReturned : o.result = some ()) :
    retire params b sub pkt data calls s =
      ⟨some (), o.state, retireEvents b.id sub data [b.retired params sub pkt data] ++
        o.trace⟩ := by
  have hCommutes : (accessAll params calls).Commutes (fun s => b.id < s.nextBurst)
      (Engine.remove · b.id) := accessAll_remove calls
  rw [(hCommutes (s.replace (b.retired params sub pkt data)) hFresh).2] at hCallback
  subst hCallback
  unfold retire
  simp only [hLast, List.isEmpty_nil, if_true, Prog.bind_apply, Prog.modify_apply, Prog.emit_apply]
  dsimp only at hReturned
  simp [hReturned, retireEvents]

variable (hPackets : params.BlockPackets) (h : Ledger params [] log s)
  (hSteady : s.Steady params) (hb : b ∈ s.pendingRequests) (hSub : sub ∈ b.pendingSubRequests)
  (hWrite : b.writeRequest = pkt.write) (hRange : sub.addrRange = pkt.getAddrRange)
  (hSize : pkt.size < 2 ^ 64) (hCalls : ∀ call ∈ calls, 0 < call.size ∧ call.Regular params)

include hPackets h hSteady hb hSub hWrite hRange hSize hCalls

theorem retire_ledger :
    (retire params b sub pkt data calls s).result = some () ∧
      Ledger params [pkt.key] (log ++ (retire params b sub pkt data calls s).trace)
        (retire params b sub pkt data calls s).state ∧
      Retires (retire params b sub pkt data calls s).trace [(b.id, sub, data)]
        (if b.pendingSubRequests.length = 1 then [b.id] else []) := by
  have hNodup := (List.nodup_append.mp (h.shared.nodup_iff.mpr h.once)).1
  obtain ⟨before, after, hList, hOthers⟩ := bursts_around hNodup hb
  have hId : (b.retired params sub pkt data).id = b.id := receive_id _ _
  have hPending : (b.retired params sub pkt data).pendingSubRequests =
      b.pendingSubRequests.erase sub := receive_pending _ _
  have hReplaced := replace_around hList hId hOthers
  have hLength := List.length_erase_of_mem hSub
  have hPos := List.length_pos_of_mem hSub
  rw [← hPending] at hLength
  by_cases hLast : (b.retired params sub pkt data).pendingSubRequests = []
  · have hFresh : b.id < s.nextBurst :=
      h.fresh _ (h.shared.mem_iff.mp (List.mem_append_left _ (List.mem_map_of_mem hb)))
    have hRemoved : (s.replace (b.retired params sub pkt data)).remove b.id =
        { s with pendingRequests := before ++ after } := by
      have hBursts := remove_around hReplaced (by rwa [hId])
      rw [hId] at hBursts
      exact congrArg (fun bursts => { s with pendingRequests := bursts }) hBursts
    have hRetired := h.retire hList hOthers hSub hWrite hRange hSize (.leaves hLast)
    obtain ⟨_, _, hReturned, _⟩ := @accessAll_runs params calls
      (fun call hCall => ⟨(hCalls call hCall).1, (hCalls call hCall).2.1⟩) _
      (hSteady.bursts (before ++ after))
    have hKeeps := accessAll_keeps hPackets hCalls _ _ hReturned
    rw [retire_last hLast hFresh (congrArg (accessAll params calls) hRemoved) hReturned,
      if_pos (by rw [hLast, List.length_nil] at hLength; omega)]
    refine ⟨rfl, ?_, Retires.append_quiet ⟨retirements_retireEvents .., ?_⟩ hKeeps.quiet⟩
    · rw [← List.append_assoc]
      exact hKeeps.ledger _ _ hRetired
    · rw [deliveries_retireEvents, List.map_singleton, hId]
  · have hRetired := h.retire hList hOthers hSub hWrite hRange hSize (.stays hLast)
    have hMore : (b.retired params sub pkt data).pendingSubRequests.length ≠ 0 :=
      fun hNone => hLast (List.eq_nil_of_length_eq_zero hNone)
    have hKept : s.replace (b.retired params sub pkt data) =
        { s with pendingRequests := before ++ (b.retired params sub pkt data :: after) } :=
      congrArg (fun bursts => { s with pendingRequests := bursts }) hReplaced
    rw [retire_more hLast, if_neg (by omega)]
    refine ⟨rfl, ?_, retirements_retireEvents .., deliveries_retireEvents ..⟩
    dsimp only
    rw [hKept]
    exact hRetired

end Response

end OpenNpux.Ndp
