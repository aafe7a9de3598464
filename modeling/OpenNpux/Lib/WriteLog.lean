import Mathlib.Data.List.Basic

/-!
# The most recent write of a log

A log lists the writes to a store in the order they were made. The value at a place is
the one that the log wrote there last, or an initial value if it wrote none.
-/

namespace OpenNpux.Lib

universe u v

variable {α : Type u} {β : Type v} [DecidableEq α]

def lastWritten (log : List (α × β)) (initial : β) (place : α) : β :=
  log.foldl (fun value entry => if entry.1 = place then entry.2 else value) initial

theorem lastWritten_append (log log' : List (α × β)) (initial : β) (place : α) :
    lastWritten (log ++ log') initial place =
      lastWritten log' (lastWritten log initial place) place :=
  List.foldl_append

theorem lastWritten_of_absent {log : List (α × β)} {place : α} (initial : β)
    (h : ∀ entry ∈ log, entry.1 ≠ place) : lastWritten log initial place = initial := by
  induction log with
  | nil => rfl
  | cons entry log ih =>
    have hHead : entry.1 ≠ place := h entry List.mem_cons_self
    have hStep : lastWritten (entry :: log) initial place = lastWritten log initial place := by
      rw [lastWritten, List.foldl_cons, if_neg hHead]
      rfl
    rw [hStep]
    exact ih fun other hOther => h other (List.mem_cons_of_mem _ hOther)

/-- When every write to a place wrote one value, that value is the last. -/
theorem lastWritten_of_agree {log : List (α × β)} {place : α} {value : β} (initial : β)
    (hAgree : ∀ entry ∈ log, entry.1 = place → entry.2 = value)
    (hWritten : ∃ entry ∈ log, entry.1 = place) : lastWritten log initial place = value := by
  induction log generalizing initial with
  | nil => simp at hWritten
  | cons entry log ih =>
    by_cases hLater : ∃ other ∈ log, other.1 = place
    · exact ih _ (fun other hOther => hAgree other (List.mem_cons_of_mem _ hOther)) hLater
    · have hHead : entry.1 = place := by
        obtain ⟨other, hOther, hPlace⟩ := hWritten
        rcases List.mem_cons.mp hOther with rfl | hTail
        · exact hPlace
        · exact absurd ⟨other, hTail, hPlace⟩ hLater
      have hStep : lastWritten (entry :: log) initial place = lastWritten log entry.2 place := by
        rw [lastWritten, List.foldl_cons, if_pos hHead]
        rfl
      rw [hStep, lastWritten_of_absent _ fun other hOther hPlace => hLater ⟨other, hOther, hPlace⟩]
      exact hAgree entry List.mem_cons_self hHead

/-- A block of consecutive places, written in order. -/
theorem lastWritten_block (a n : Nat) (src : Nat → β) (initial : β) (place : Nat) :
    lastWritten ((List.range n).map fun i => (a + i, src i)) initial place =
      if a ≤ place ∧ place < a + n then src (place - a) else initial := by
  induction n with
  | zero =>
    rw [if_neg (by omega)]
    rfl
  | succ n ih =>
    rw [List.range_succ, List.map_append, lastWritten_append, ih]
    change (if a + n = place then src n else _) = _
    by_cases hLast : a + n = place
    · rw [if_pos hLast, if_pos (by omega)]
      exact congrArg src (by omega)
    · rw [if_neg hLast]
      by_cases hInside : a ≤ place ∧ place < a + n
      · rw [if_pos hInside, if_pos (by omega)]
      · rw [if_neg hInside, if_neg (by omega)]

end OpenNpux.Lib
