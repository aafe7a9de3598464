import OpenNpux.Lib.Bytes
import OpenNpux.Lib.Prog

/-!
# Transfers through the slave port

The wrapper cuts a transfer at the multiples of 4 KiB and waits for each transaction
before it issues the next one. What the bus does with a transaction is a parameter; one
that never finishes is `none`. The writing loop is driven by the bytes that are left, the
reading loop by the bytes that have come back while its address advances by those asked for.
-/

namespace OpenNpux.Bridge

open Lib

structure SlavePort (σ : Type) where
  writeTransaction : Nat → List UInt8 → σ → Option σ
  readTransaction : Nat → Nat → σ → Option (List UInt8 × σ)

inductive Transaction
  | write (addr : Nat) (payload : List UInt8)
  | read (addr bytes : Nat) (data : Option (List UInt8))
deriving DecidableEq

namespace Transaction

def piece : Transaction → Nat × Nat
  | .write addr payload => (addr, addr + payload.length)
  | .read addr bytes _ => (addr, addr + bytes)

def data : Transaction → List UInt8
  | .write _ payload => payload
  | .read _ _ data => data.getD []

def isWrite : Transaction → Bool
  | .write _ _ => true
  | .read _ _ _ => false

end Transaction

namespace SlavePort

variable {σ : Type} (port : SlavePort σ)

def boundary (addr : Nat) : Nat := 4096 - addr % 4096

def finishWrite (addr : Nat) (payload : List UInt8) : Prog σ Transaction Unit := fun s =>
  match port.writeTransaction addr payload s with
  | none => ⟨none, s, [.write addr payload]⟩
  | some s' => ⟨some (), s', [.write addr payload]⟩

def finishRead (addr bytes : Nat) : Prog σ Transaction (List UInt8) := fun s =>
  match port.readTransaction addr bytes s with
  | none => ⟨none, s, [.read addr bytes none]⟩
  | some (data, s') => ⟨some data, s', [.read addr bytes (some data)]⟩

/-- A loop that is not done after so many rounds is rejected. -/
def writeLoop : Nat → Nat → List UInt8 → Prog σ Transaction Unit
  | rounds, addr, remaining =>
    if remaining.isEmpty then pure ()
    else
      match rounds with
      | 0 => Prog.require false
      | rounds + 1 => do
        let bytes := min (remaining.length % 2 ^ 32) (boundary addr)
        finishWrite port addr (remaining.take bytes)
        writeLoop rounds ((addr + bytes) % 2 ^ 32) (remaining.drop bytes)

def write (rounds addr : Nat) (data : List UInt8) : Prog σ Transaction Unit :=
  writeLoop port rounds addr data

def readLoop (len : Nat) : Nat → Nat → List UInt8 → Prog σ Transaction (List UInt8)
  | rounds, addr, result =>
    if result.length < len then
      match rounds with
      | 0 => do
        Prog.require false
        return result
      | rounds + 1 => do
        let bytes := min (len - result.length) (boundary addr)
        let data ← finishRead port addr bytes
        readLoop len rounds ((addr + bytes) % 2 ^ 32) (result ++ data)
    else pure result

def read (rounds addr len : Nat) : Prog σ Transaction (List UInt8) :=
  readLoop port len rounds addr []

/-! ## One round -/

/-- The first and the last address are between the same multiples of 4 KiB. -/
def SamePage (start stop : Nat) : Prop := start / 4096 = (stop - 1) / 4096

theorem round_piece {a n : Nat} (h : 0 < n) :
    a < a + min n (boundary a) ∧ SamePage a (a + min n (boundary a)) := by
  unfold boundary SamePage
  omega

/-- The transactions of a transfer of this range. -/
structure Covers (start stop : Nat) (write : Bool) (ts : List Transaction) : Prop where
  kind : ∀ t ∈ ts, t.isWrite = write
  consecutive : Pieces SamePage start stop (ts.map Transaction.piece)

theorem Covers.nil (start : Nat) (write : Bool) : Covers start start write [] :=
  ⟨fun _ hNever => absurd hNever List.not_mem_nil, .nil start⟩

theorem Covers.cons {start middle stop : Nat} {t : Transaction} {ts : List Transaction}
    (hPiece : t.piece = (start, middle)) (hSome : start < middle) (hPage : SamePage start middle)
    (h : Covers middle stop t.isWrite ts) : Covers start stop t.isWrite (t :: ts) := by
  constructor
  · rintro t' hMem
    rcases List.mem_cons.mp hMem with rfl | hMem
    · rfl
    · exact h.kind t' hMem
  · rw [List.map_cons, hPiece]
    exact .cons hSome hPage h.consecutive

theorem Covers.once {start stop : Nat} {write : Bool} {ts : List Transaction}
    (h : Covers start stop write ts) (x : Nat) :
    Pieces.holding x (ts.map Transaction.piece) = if start ≤ x ∧ x < stop then 1 else 0 :=
  h.consecutive.holding_eq x

/-! ## The loops -/

/-- Every transaction finishes, and one that reads returns as many bytes as it was asked for. -/
structure Finishes : Prop where
  writes : ∀ addr payload s, (port.writeTransaction addr payload s).isSome = true
  reads : ∀ addr bytes s, ∃ data s', port.readTransaction addr bytes s = some (data, s') ∧
    data.length = bytes

variable {port}

theorem finishWrite_eq (h : port.Finishes) (addr : Nat) (payload : List UInt8) (s : σ) :
    ∃ s', finishWrite port addr payload s = ⟨some (), s', [.write addr payload]⟩ := by
  obtain ⟨s', hs'⟩ := Option.isSome_iff_exists.mp (h.writes addr payload s)
  exact ⟨s', by rw [finishWrite, hs']⟩

theorem finishRead_eq (h : port.Finishes) (addr bytes : Nat) (s : σ) :
    ∃ data s', finishRead port addr bytes s = ⟨some data, s', [.read addr bytes (some data)]⟩ ∧
      data.length = bytes := by
  obtain ⟨data, s', hs', hLength⟩ := h.reads addr bytes s
  exact ⟨data, s', by rw [finishRead, hs'], hLength⟩

/-- What a returned transfer has done, with the addresses from `start` on. -/
structure Transferred (start : Nat) (write : Bool) (bytes : List UInt8)
    (ts : List Transaction) : Prop where
  covers : Covers start (start + bytes.length) write ts
  payloads : ts.flatMap Transaction.data = bytes

theorem Transferred.nil (start : Nat) (write : Bool) : Transferred start write [] [] :=
  ⟨.nil start write, rfl⟩

theorem Transferred.cons {start n : Nat} {t : Transaction} {bytes : List UInt8}
    {ts : List Transaction} (hPiece : t.piece = (start, start + n)) (hData : t.data.length = n)
    (hSome : start < start + n) (hPage : SamePage start (start + n))
    (h : Transferred (start + n) t.isWrite bytes ts) :
    Transferred start t.isWrite (t.data ++ bytes) (t :: ts) := by
  constructor
  · rw [List.length_append, hData, ← Nat.add_assoc]
    exact .cons hPiece hSome hPage h.covers
  · rw [List.flatMap_cons, h.payloads]

/-- The address may have wrapped to 0 when nothing is left. -/
theorem writeLoop_transfers (h : port.Finishes) {rounds a : Nat} {remaining : List UInt8}
    (hRounds : remaining.length ≤ rounds) (hLength : remaining.length < 2 ^ 32)
    (hEnd : a + remaining.length ≤ 2 ^ 32) (s : σ) :
    (writeLoop port rounds (a % 2 ^ 32) remaining s).result = some () ∧
      Transferred a true remaining (writeLoop port rounds (a % 2 ^ 32) remaining s).trace := by
  induction rounds generalizing a remaining s with
  | zero =>
    obtain rfl := List.length_eq_zero_iff.mp (Nat.le_zero.mp hRounds)
    exact ⟨rfl, .nil a true⟩
  | succ rounds ih =>
    by_cases hDone : remaining = []
    · subst hDone
      exact ⟨rfl, .nil a true⟩
    · have hPos := List.length_pos_iff.mpr hDone
      have hAddr : a % 2 ^ 32 = a := Nat.mod_eq_of_lt (by omega)
      obtain ⟨hSome, hPage⟩ := @round_piece a remaining.length hPos
      have hBytes : min (remaining.length % 2 ^ 32) (boundary a) =
          min remaining.length (boundary a) := by rw [Nat.mod_eq_of_lt hLength]
      generalize hn : min remaining.length (boundary a) = bytes at hSome hPage hBytes
      have hTaken : (remaining.take bytes).length = bytes := List.length_take_of_le (by omega)
      obtain ⟨s', hWritten⟩ := finishWrite_eq h a (remaining.take bytes) s
      have hLeft : (remaining.drop bytes).length = remaining.length - bytes := List.length_drop
      obtain ⟨hResult, hRest⟩ := @ih (a + bytes) (remaining.drop bytes) (by omega) (by omega)
        (by omega) s'
      have hOutcome : writeLoop port (rounds + 1) (a % 2 ^ 32) remaining s =
          (finishWrite port a (remaining.take bytes) >>= fun _ =>
            writeLoop port rounds ((a + bytes) % 2 ^ 32) (remaining.drop bytes)) s := by
        rw [writeLoop, if_neg (by simpa using hDone), hAddr, hBytes]
      rw [hOutcome, Prog.bind_returned (by rw [hWritten]), hWritten]
      have hPiece : (Transaction.write a (remaining.take bytes)).piece = (a, a + bytes) := by
        rw [Transaction.piece, hTaken]
      have hAll := Transferred.cons hPiece hTaken hSome hPage hRest
      rw [Transaction.data, List.take_append_drop] at hAll
      exact ⟨hResult, hAll⟩

theorem readLoop_transfers (h : port.Finishes) {len rounds a : Nat} {result : List UInt8}
    (hBegun : result.length ≤ len) (hRounds : len - result.length ≤ rounds)
    (hEnd : a + (len - result.length) ≤ 2 ^ 32) (s : σ) :
    ∃ bytes, (readLoop port len rounds (a % 2 ^ 32) result s).result = some (result ++ bytes) ∧
      bytes.length = len - result.length ∧
      Transferred a false bytes (readLoop port len rounds (a % 2 ^ 32) result s).trace := by
  induction rounds generalizing a result s with
  | zero =>
    refine ⟨[], ?_, ?_, ?_⟩
    · rw [readLoop, if_neg (by omega), List.append_nil]
      rfl
    · exact (Nat.le_zero.mp hRounds).symm
    · rw [readLoop, if_neg (by omega)]
      exact .nil a false
  | succ rounds ih =>
    by_cases hDone : result.length < len
    · have hAddr : a % 2 ^ 32 = a := Nat.mod_eq_of_lt (by omega)
      obtain ⟨hSome, hPage⟩ := @round_piece a (len - result.length) (by omega)
      generalize hn : min (len - result.length) (boundary a) = bytes at hSome hPage
      obtain ⟨data, s', hRead, hData⟩ := finishRead_eq h a bytes s
      have hGrown : (result ++ data).length = result.length + bytes := by
        rw [List.length_append, hData]
      obtain ⟨rest, hResult, hRestLength, hRest⟩ := @ih (a + bytes) (result ++ data) (by omega)
        (by omega) (by omega) s'
      have hOutcome : readLoop port len (rounds + 1) (a % 2 ^ 32) result s =
          (finishRead port a bytes >>= fun data =>
            readLoop port len rounds ((a + bytes) % 2 ^ 32) (result ++ data)) s := by
        rw [readLoop, if_pos hDone, hAddr, hn]
      rw [hOutcome, Prog.bind_returned (by rw [hRead]), hRead]
      refine ⟨data ++ rest, ?_, ?_, ?_⟩
      · rw [hResult, List.append_assoc]
      · rw [List.length_append, hData, hRestLength]
        omega
      · exact Transferred.cons (t := .read a bytes (some data)) rfl hData hSome hPage hRest
    · refine ⟨[], ?_, ?_, ?_⟩
      · rw [readLoop, if_neg hDone, List.append_nil]
        rfl
      · exact (Nat.sub_eq_zero_of_le (by omega)).symm
      · rw [readLoop, if_neg hDone]
        exact .nil a false

/-- A transfer returns, cut at the multiples of 4 KiB; a write's payloads make up its data and
a read's data what it returns. -/
theorem transfers_cut_at_pages (port : SlavePort σ) (h : port.Finishes) (addr : Nat)
    (hAddr : addr < 2 ^ 32) (s : σ) :
    (∀ rounds data, data.length < 2 ^ 32 → addr + data.length ≤ 2 ^ 32 → data.length ≤ rounds →
      (write port rounds addr data s).result = some () ∧
      Transferred addr true data (write port rounds addr data s).trace ∧
      ∀ x, Pieces.holding x ((write port rounds addr data s).trace.map Transaction.piece) =
        if addr ≤ x ∧ x < addr + data.length then 1 else 0) ∧
    (∀ rounds len, addr + len ≤ 2 ^ 32 → len ≤ rounds →
      ∃ bytes, (read port rounds addr len s).result = some bytes ∧ bytes.length = len ∧
      Transferred addr false bytes (read port rounds addr len s).trace ∧
      ∀ x, Pieces.holding x ((read port rounds addr len s).trace.map Transaction.piece) =
        if addr ≤ x ∧ x < addr + len then 1 else 0) := by
  have hSame : addr % 2 ^ 32 = addr := Nat.mod_eq_of_lt hAddr
  constructor
  · intro rounds data hLength hEnd hRounds
    have hLoop := writeLoop_transfers h hRounds hLength hEnd s
    rw [hSame] at hLoop
    exact ⟨hLoop.1, hLoop.2, hLoop.2.covers.once⟩
  · intro rounds len hEnd hRounds
    obtain ⟨bytes, hResult, hLength, hDone⟩ :=
      @readLoop_transfers σ port h len rounds addr [] (Nat.zero_le len) hRounds hEnd s
    rw [List.nil_append] at hResult
    rw [hSame] at hResult hDone
    have hOnce := hDone.covers.once
    rw [hLength] at hOnce
    exact ⟨bytes, hResult, hLength, hDone, hOnce⟩

def memoryPort : SlavePort ByteMem where
  writeTransaction addr payload m :=
    some (m.store addr payload.length fun i => payload.getD i 0)
  readTransaction addr bytes m := some ((List.range bytes).map fun i => m (addr + i), m)

theorem memoryPort_finishes : memoryPort.Finishes where
  writes _ _ _ := rfl
  reads addr bytes m := ⟨_, m, rfl, by rw [List.length_map, List.length_range]⟩

theorem transfers_cut_at_pages_memory :
    (write memoryPort 8 4092 [1, 2, 3, 4, 5, 6, 7, 8] fun _ => 0).result = some () ∧
      ∃ bytes, (read memoryPort 8 4092 8 fun _ => 0).result = some bytes ∧ bytes.length = 8 := by
  obtain ⟨hWrite, hRead⟩ :=
    transfers_cut_at_pages memoryPort memoryPort_finishes 4092 (by decide) fun _ => 0
  obtain ⟨bytes, hResult, hLength, -⟩ := hRead 8 8 (by decide) (by decide)
  exact ⟨(hWrite 8 _ (by decide) (by decide) (by decide)).1, bytes, hResult, hLength⟩

end SlavePort
end OpenNpux.Bridge
