import OpenNpux.Device.VerilatedBackend
import OpenNpux.Lib.Journal

/-!
# The firmware loader of the Verilated backend

The image is any byte string. Every read of it is an event, with the reads that the bridge
makes through the pointer it is given; the calls of the bridge and the comparison with what
was read back are events too. The header fields are 32 and 16 bits wide and their sums are
taken in 64 bits, so no sum wraps.
-/

namespace OpenNpux.Device

open Lib

structure Image where
  size : Nat
  bytes : ByteMem

def Image.slice (image : Image) (offset size : Nat) : List UInt8 :=
  (List.range size).map fun i => image.bytes (offset + i)

inductive LoadFatal
  | notElf | format | programHeaders | truncatedHeaders | truncatedSegment
  | externalSegment (addr size : Nat)
  | segment (addr : Nat)
  | readBack (addr : Nat)
  | verification (addr : Nat) (expected actual : UInt8)
deriving DecidableEq

inductive LoadCall
  | extmemWrite (addr : Nat) (data : List UInt8)
  | mmioWrite (addr : Nat) (data : List UInt8)
  | mmioRead (addr size : Nat)
  | compare (expected loaded : List UInt8)
deriving DecidableEq

inductive LoadEvent
  | fileRead (offset size : Nat)
  | call (c : LoadCall)
  | fatal (f : LoadFatal)
deriving DecidableEq

def sizeofEhdr : Nat := 52

def sizeofPhdr : Nat := 32

/-- The four bytes of `ELFMAG`, the first one lowest. -/
def elfMag : Nat := 0x464c457f

def ptLoad : Nat := 1

def coralExtmemBase : Nat := 0x20000000

section Loader

variable {M : Type} (br : CoralBridge M) (image : Image)

def stop {α : Type} (f : LoadFatal) : Prog M LoadEvent α := fun m => ⟨none, m, [.fatal f]⟩

def stopIf (c : Bool) (f : LoadFatal) : Prog M LoadEvent Unit := if c then stop f else pure ()

def field (offset size : Nat) : Prog M LoadEvent Nat := do
  Prog.emit (.fileRead offset size)
  return image.bytes.load offset size

def callBridge {α : Type} (f : M → M × α) : Prog M LoadEvent α := fun m =>
  ⟨some (f m).2, (f m).1, []⟩

def writeExtmem (addr offset size : Nat) : Prog M LoadEvent Bool := do
  Prog.emit (.fileRead offset size)
  Prog.emit (.call (.extmemWrite addr (image.slice offset size)))
  callBridge fun m =>
    match br.extmemWrite addr size (fun i => image.bytes (offset + i)) m with
    | none => (m, false)
    | some m' => (m', true)

def writeMmio (addr offset size : Nat) : Prog M LoadEvent Bool := do
  Prog.emit (.fileRead offset size)
  Prog.emit (.call (.mmioWrite addr (image.slice offset size)))
  callBridge (br.mmioWrite addr size fun i => image.bytes (offset + i))

def readMmio (addr size : Nat) : Prog M LoadEvent (Option ByteMem) := do
  Prog.emit (.call (.mmioRead addr size))
  callBridge (br.mmioRead addr size)

/-- The function `std::mismatch` on what was read back and the image. -/
def mismatch (offset size : Nat) (loaded : ByteMem) : Prog M LoadEvent (Option Nat) := do
  Prog.emit (.fileRead offset size)
  Prog.emit (.call (.compare (image.slice offset size) ((List.range size).map loaded)))
  return (List.range size).find? fun i => loaded i != image.bytes (offset + i)

def verify (addr offset size : Nat) (loaded : ByteMem) : Prog M LoadEvent Unit := do
  match ← mismatch image offset size loaded with
  | none => pure ()
  | some i => stop (.verification (addr + i) (image.bytes (offset + i)) (loaded i))

def loadSlave (paddr offset filesz : Nat) : Prog M LoadEvent Unit := do
  let written ← writeMmio br image paddr offset filesz
  stopIf (!written) (.segment paddr)
  match ← readMmio br paddr filesz with
  | none => stop (.readBack paddr)
  | some loaded => verify image paddr offset filesz loaded

def loadExternal (paddr offset filesz : Nat) : Prog M LoadEvent Unit := do
  let written ← writeExtmem br image paddr offset filesz
  stopIf (!written) (.externalSegment paddr filesz)

/-- The body of the loop, on the program header at this offset. -/
def loadSegment (segment : Nat) : Prog M LoadEvent Unit := do
  let type ← field image segment 4
  if type ≠ ptLoad then pure ()
  else do
    let filesz ← field image (segment + 16) 4
    if filesz = 0 then pure ()
    else do
      let offset ← field image (segment + 4) 4
      stopIf (decide (image.size < offset + filesz)) .truncatedSegment
      let paddr ← field image (segment + 12) 4
      if coralExtmemBase ≤ paddr then loadExternal br image paddr offset filesz
      else loadSlave br image paddr offset filesz

def loadFirmware : Prog M LoadEvent Nat := do
  stopIf (decide (image.size < sizeofEhdr)) .notElf
  let magic ← field image 0 4
  stopIf (magic != elfMag) .format
  let fileClass ← field image 4 1
  stopIf (fileClass != 1) .format
  let encoding ← field image 5 1
  stopIf (encoding != 1) .format
  let phentsize ← field image 42 2
  stopIf (phentsize != sizeofPhdr) .programHeaders
  let phoff ← field image 28 4
  let phnum ← field image 44 2
  stopIf (decide (image.size < phoff + phnum * sizeofPhdr)) .truncatedHeaders
  Prog.loop phnum () fun i _ => loadSegment br image (phoff + i * sizeofPhdr)
  field image 24 4

end Loader

/-! ## What is to be loaded -/

structure Segment where
  type : Nat
  offset : Nat
  paddr : Nat
  filesz : Nat

/-- The header at this offset of the image. -/
def Image.segment (image : Image) (place : Nat) : Segment where
  type := image.bytes.load place 4
  offset := image.bytes.load (place + 4) 4
  paddr := image.bytes.load (place + 12) 4
  filesz := image.bytes.load (place + 16) 4

def Image.entry (image : Image) : Nat := image.bytes.load 24 4

def Image.programHeaders (image : Image) : List Segment :=
  (List.range (image.bytes.load 44 2)).map fun i =>
    image.segment (image.bytes.load 28 4 + i * sizeofPhdr)

def Segment.Loads (segment : Segment) : Prop := segment.type = ptLoad ∧ 0 < segment.filesz

instance (segment : Segment) : Decidable segment.Loads := inferInstanceAs (Decidable (_ ∧ _))

def Image.contents (image : Image) (segment : Segment) : List UInt8 :=
  image.slice segment.offset segment.filesz

def Image.write (image : Image) (segment : Segment) : LoadCall :=
  if coralExtmemBase ≤ segment.paddr then .extmemWrite segment.paddr (image.contents segment)
  else .mmioWrite segment.paddr (image.contents segment)

/-- The calls for a segment that is loaded: what went to the slave port came back. -/
def Image.calls (image : Image) (segment : Segment) : List LoadCall :=
  if coralExtmemBase ≤ segment.paddr then [image.write segment]
  else [image.write segment, .mmioRead segment.paddr segment.filesz,
    .compare (image.contents segment) (image.contents segment)]

def Image.callsIfLoaded (image : Image) (segment : Segment) : List LoadCall :=
  if segment.Loads then image.calls segment else []

def LoadCall.isWrite : LoadCall → Bool
  | .extmemWrite _ _ => true
  | .mmioWrite _ _ => true
  | .mmioRead _ _ => false
  | .compare _ _ => false

def LoadEvent.call? : LoadEvent → Option LoadCall
  | .call c => some c
  | .fileRead _ _ => none
  | .fatal _ => none

def LoadEvent.Inside (image : Image) : LoadEvent → Prop
  | .fileRead offset size => offset + size ≤ image.size
  | .call _ => True
  | .fatal _ => True

def LoadEvent.IsFatal : LoadEvent → Prop
  | .fatal _ => True
  | .fileRead _ _ => False
  | .call _ => False

section Accounts

variable {M : Type} {br : CoralBridge M} {image : Image}

abbrev Accounts (image : Image) {α : Type} (p : Prog M LoadEvent α)
    (post : α → List LoadCall → Prop) : Prop :=
  p.Accounts (LoadEvent.Inside image) LoadEvent.IsFatal LoadEvent.call? post

theorem accounts_stop {α : Type} (f : LoadFatal) (post : α → List LoadCall → Prop) :
    Accounts image (stop f : Prog M LoadEvent α) post where
  allowed _ e he := by
    rw [List.mem_singleton.mp he]
    trivial
  rejected _ _ := ⟨_, List.mem_singleton_self _, trivial⟩
  returned _ _ hNever := by cases hNever

theorem accounts_stopIf_bind {α : Type} {c : Bool} {f : LoadFatal} {p : Unit → Prog M LoadEvent α}
    {post : α → List LoadCall → Prop} (hp : c = false → Accounts image (p ()) post) :
    Accounts image (stopIf c f >>= p) post := by
  cases c with
  | false => exact hp rfl
  | true => exact .bind (accounts_stop f fun _ _ => False) fun _ _ hNever => hNever.elim

theorem accounts_field {offset size : Nat} (h : offset + size ≤ image.size) :
    Accounts image (field image offset size : Prog M LoadEvent Nat)
      fun value log => value = image.bytes.load offset size ∧ log = [] :=
  .emit_bind h (.pure ⟨rfl, rfl⟩)

theorem accounts_field_bind {α : Type} {offset size : Nat} {p : Nat → Prog M LoadEvent α}
    {post : α → List LoadCall → Prop} (h : offset + size ≤ image.size)
    (hp : Accounts image (p (image.bytes.load offset size)) post) :
    Accounts image (field image offset size >>= p) post :=
  .bind_known (accounts_field h) hp

theorem accounts_callBridge {α : Type} {f : M → M × α} {post : α → List LoadCall → Prop}
    (h : ∀ a, post a []) : Accounts image (callBridge f) post where
  allowed _ _ hNever := absurd hNever List.not_mem_nil
  rejected _ hNever := by cases hNever
  returned _ a _ := h a

/-! ## One segment -/

theorem accounts_verify {addr offset size : Nat} {loaded : ByteMem}
    (h : offset + size ≤ image.size) :
    Accounts image (verify image addr offset size loaded : Prog M LoadEvent Unit)
      fun _ log => log = [.compare (image.slice offset size) (image.slice offset size)] := by
  refine .bind_known (.emit_bind h (.emit_bind trivial (.pure ⟨rfl, rfl⟩))) ?_
  cases hFound : (List.range size).find? fun i => loaded i != image.bytes (offset + i) with
  | none =>
    have hSame : (List.range size).map loaded = image.slice offset size := by
      refine List.map_congr_left fun i hi => ?_
      have hEqual := List.find?_eq_none.mp hFound i hi
      simpa using hEqual
    rw [hSame]
    exact .pure rfl
  | some i => exact accounts_stop _ _

theorem accounts_loadExternal {paddr offset filesz : Nat} (h : offset + filesz ≤ image.size) :
    Accounts image (loadExternal br image paddr offset filesz)
      fun _ log => log = [.extmemWrite paddr (image.slice offset filesz)] := by
  have hWrite : Accounts image (writeExtmem br image paddr offset filesz)
      fun _ log => log = [.extmemWrite paddr (image.slice offset filesz)] :=
    .emit_bind h (.emit_bind trivial (accounts_callBridge fun _ => rfl))
  refine .bind hWrite fun written log hLog => ?_
  rw [hLog]
  cases written with
  | false => exact accounts_stop _ _
  | true => exact .pure rfl

theorem accounts_loadSlave {paddr offset filesz : Nat} (h : offset + filesz ≤ image.size) :
    Accounts image (loadSlave br image paddr offset filesz) fun _ log =>
      log = [.mmioWrite paddr (image.slice offset filesz), .mmioRead paddr filesz,
        .compare (image.slice offset filesz) (image.slice offset filesz)] := by
  have hWrite : Accounts image (writeMmio br image paddr offset filesz)
      fun _ log => log = [.mmioWrite paddr (image.slice offset filesz)] :=
    .emit_bind h (.emit_bind trivial (accounts_callBridge fun _ => rfl))
  have hRead : Accounts image (readMmio br paddr filesz)
      fun _ log => log = [.mmioRead paddr filesz] :=
    .emit_bind trivial (accounts_callBridge fun _ => rfl)
  refine .bind hWrite fun written log hLog => accounts_stopIf_bind fun _ => ?_
  refine .bind hRead fun loaded log' hLog' => ?_
  rw [hLog, hLog']
  cases loaded with
  | none => exact accounts_stop _ _
  | some loaded =>
    refine (accounts_verify h).mono fun _ log'' hLog'' => ?_
    rw [hLog'']
    rfl

theorem accounts_loadSegment {segment : Nat} (h : segment + sizeofPhdr ≤ image.size) :
    Accounts image (loadSegment br image segment) fun _ log =>
      log = image.callsIfLoaded (image.segment segment) := by
  have hSize : segment + 32 ≤ image.size := h
  rw [Image.callsIfLoaded]
  refine accounts_field_bind (by omega) (.ite (fun hType => ?_) fun hType => ?_)
  · rw [if_neg fun hLoads => hType hLoads.1]
    exact .pure rfl
  · refine accounts_field_bind (by omega) (.ite (fun hEmpty => ?_) fun hSome => ?_)
    · rw [if_neg fun hLoads => absurd hEmpty (Nat.ne_of_gt hLoads.2)]
      exact .pure rfl
    · have hLoads : (image.segment segment).Loads :=
        ⟨not_not.mp hType, Nat.pos_of_ne_zero hSome⟩
      rw [if_pos hLoads]
      refine accounts_field_bind (by omega) (accounts_stopIf_bind fun hChecked => ?_)
      have hInside := Nat.le_of_not_lt (of_decide_eq_false hChecked)
      refine accounts_field_bind (by omega) (.ite (fun hExternal => ?_) fun hSlave => ?_)
      · have hCalls : image.calls (image.segment segment) = _ := if_pos hExternal
        rw [hCalls, Image.write, if_pos (show coralExtmemBase ≤ (image.segment segment).paddr from
          hExternal)]
        exact accounts_loadExternal hInside
      · have hCalls : image.calls (image.segment segment) = _ := if_neg hSlave
        rw [hCalls, Image.write, if_neg (show ¬coralExtmemBase ≤ (image.segment segment).paddr from
          hSlave)]
        exact accounts_loadSlave hInside

/-! ## The whole image -/

theorem flatMap_callsIfLoaded (image : Image) (segments : List Segment) :
    segments.flatMap image.callsIfLoaded = (segments.filter Segment.Loads).flatMap image.calls := by
  induction segments with
  | nil => rfl
  | cons segment segments ih =>
    rw [List.flatMap_cons, ih, Image.callsIfLoaded, List.filter_cons]
    by_cases hLoads : segment.Loads
    · rw [if_pos hLoads, if_pos (decide_eq_true hLoads), List.flatMap_cons]
    · rw [if_neg hLoads, if_neg (by simpa using hLoads), List.nil_append]

theorem accounts_loadFirmware :
    Accounts image (loadFirmware br image) fun entry log => entry = image.entry ∧
      log = (image.programHeaders.filter Segment.Loads).flatMap image.calls := by
  refine accounts_stopIf_bind fun hHeader => ?_
  have hSize : 52 ≤ image.size := Nat.le_of_not_lt (of_decide_eq_false hHeader)
  refine accounts_field_bind (by omega) (accounts_stopIf_bind fun _ => ?_)
  refine accounts_field_bind (by omega) (accounts_stopIf_bind fun _ => ?_)
  refine accounts_field_bind (by omega) (accounts_stopIf_bind fun _ => ?_)
  refine accounts_field_bind (by omega) (accounts_stopIf_bind fun _ => ?_)
  refine accounts_field_bind (by omega) (accounts_field_bind (by omega) ?_)
  refine accounts_stopIf_bind fun hChecked => ?_
  have hTable := Nat.le_of_not_lt (of_decide_eq_false hChecked)
  have hLoop : Accounts image
      (Prog.loop (image.bytes.load 44 2) () fun i _ =>
        loadSegment br image (image.bytes.load 28 4 + i * sizeofPhdr))
      fun _ log => log = (List.range (image.bytes.load 44 2)).flatMap fun i =>
        image.callsIfLoaded (image.segment (image.bytes.load 28 4 + i * sizeofPhdr)) := by
    refine .loop (I := fun n _ log => log = (List.range n).flatMap fun i =>
      image.callsIfLoaded (image.segment (image.bytes.load 28 4 + i * sizeofPhdr))) rfl ?_
    intro i hi _ log hLog
    have hPlace : (i + 1) * sizeofPhdr ≤ image.bytes.load 44 2 * sizeofPhdr :=
      Nat.mul_le_mul_right _ hi
    rw [Nat.succ_mul] at hPlace
    refine (accounts_loadSegment (by omega)).mono fun _ more hMore => ?_
    rw [hLog, hMore, List.range_succ, List.flatMap_append, List.flatMap_singleton]
  refine .bind hLoop fun _ log hLog => (accounts_field (by omega)).mono ?_
  rintro entry more ⟨hEntry, hMore⟩
  refine ⟨hEntry, ?_⟩
  rw [hLog, hMore, List.append_nil, ← flatMap_callsIfLoaded, Image.programHeaders,
    List.flatMap_map]

end Accounts

theorem filter_calls (image : Image) (segment : Segment) :
    (image.calls segment).filter LoadCall.isWrite = [image.write segment] := by
  unfold Image.calls Image.write
  split
  · rfl
  · rfl

theorem filter_flatMap_calls (image : Image) (segments : List Segment) :
    (segments.flatMap image.calls).filter LoadCall.isWrite = segments.map image.write := by
  induction segments with
  | nil => rfl
  | cons segment segments ih =>
    rw [List.flatMap_cons, List.filter_append, ih, filter_calls]
    rfl

theorem compare_mem_calls {image : Image} {segments : List Segment} {expected loaded : List UInt8}
    (h : LoadCall.compare expected loaded ∈ segments.flatMap image.calls) : expected = loaded := by
  obtain ⟨segment, -, hCall⟩ := List.mem_flatMap.mp h
  rw [Image.calls, Image.write] at hCall
  split at hCall
  · simp at hCall
  · simp at hCall
    rw [hCall.1, hCall.2]

structure LoadsExactly {M : Type} (image : Image) (o : Outcome M LoadEvent Nat) : Prop where
  inside : ∀ offset size, .fileRead offset size ∈ o.trace → offset + size ≤ image.size
  reported : o.result = none → ∃ f, .fatal f ∈ o.trace
  entry : ∀ entry, o.result = some entry → entry = image.entry
  calls : o.result ≠ none → o.trace.filterMap LoadEvent.call? =
    (image.programHeaders.filter Segment.Loads).flatMap image.calls
  writes : o.result ≠ none → (o.trace.filterMap LoadEvent.call?).filter LoadCall.isWrite =
    (image.programHeaders.filter Segment.Loads).map image.write
  compared : ∀ expected loaded, .call (.compare expected loaded) ∈ o.trace → expected ≠ loaded →
    o.result = none ∧ ∃ f, .fatal f ∈ o.trace

theorem loadFirmware_exact {M : Type} (br : CoralBridge M) (image : Image) (model : M) :
    LoadsExactly image (loadFirmware br image model) := by
  have hAccounts := @accounts_loadFirmware M br image
  have hReported (hNone : (loadFirmware br image model).result = none) :
      ∃ f, LoadEvent.fatal f ∈ (loadFirmware br image model).trace := by
    obtain ⟨e, he, hFatal⟩ := hAccounts.rejected model hNone
    cases e with
    | fatal f => exact ⟨f, he⟩
    | fileRead | call => exact hFatal.elim
  have hCalls (hSome : (loadFirmware br image model).result ≠ none) :
      (loadFirmware br image model).trace.filterMap LoadEvent.call? =
        (image.programHeaders.filter Segment.Loads).flatMap image.calls := by
    obtain ⟨entry, hEntry⟩ := Option.ne_none_iff_exists'.mp hSome
    exact (hAccounts.returned model entry hEntry).2
  constructor
  · exact fun offset size hRead => hAccounts.allowed model _ hRead
  · exact hReported
  · exact fun entry hEntry => (hAccounts.returned model entry hEntry).1
  · exact hCalls
  · intro hSome
    rw [hCalls hSome, filter_flatMap_calls]
  · intro expected loaded hCompared hDiffer
    have hNone : (loadFirmware br image model).result = none := by
      by_contra hSome
      have hMem : LoadCall.compare expected loaded ∈
          (loadFirmware br image model).trace.filterMap LoadEvent.call? :=
        List.mem_filterMap.mpr ⟨_, hCompared, rfl⟩
      rw [hCalls hSome] at hMem
      exact hDiffer (compare_mem_calls hMem)
    exact ⟨hNone, hReported hNone⟩

def smallImage : Image where
  size := 88
  bytes := .ofWords 0 [elfMag, 0x00010101, 0, 0, 0x00f30002, 1, 0x100, 52, 0, 0, 0x00200034,
    0x00280001, 0, ptLoad, 84, 0, coralExtmemBase, 4, 4, 5, 4, 0x04030201]

example : (loadFirmware idleBridge smallImage ()).result = some 0x100 ∧
    (loadFirmware idleBridge smallImage ()).trace.filterMap LoadEvent.call? =
      [.extmemWrite coralExtmemBase [1, 2, 3, 4]] := by
  decide +kernel

end OpenNpux.Device
