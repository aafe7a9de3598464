import Mathlib.Data.List.Basic

/-!
# One valid/ready channel of a clocked bus

The source offers a payload on the wires and the sink drives a ready bit between
two rising edges. A rising edge with both high transfers the payload; the source
then moves on, and without a transfer it must hold what it offers.
-/

namespace OpenNpux.Lib

universe u

variable {α : Type u}

structure Channel (α : Type u) where
  offer : Option α := none
  transferred : List α := []

namespace Channel

def rise (c : Channel α) (ready : Bool) (next : Option α) : Channel α where
  offer := next
  transferred := if ready then c.transferred ++ c.offer.toList else c.transferred

/-- The source may change what it offers only when the last offer was taken. -/
def Holds (c : Channel α) (ready : Bool) (next : Option α) : Prop :=
  ready = true ∨ c.offer = none ∨ next = c.offer

instance [DecidableEq α] (c : Channel α) (ready : Bool) (next : Option α) :
    Decidable (c.Holds ready next) :=
  inferInstanceAs (Decidable (_ ∨ _ ∨ _))

/-- Everything the source has put on the wires so far, oldest first. -/
def presented (c : Channel α) : List α := c.transferred ++ c.offer.toList

@[simp]
theorem rise_offer (c : Channel α) (ready : Bool) (next : Option α) :
    (c.rise ready next).offer = next := rfl

@[simp]
theorem rise_ready_transferred (c : Channel α) (next : Option α) :
    (c.rise true next).transferred = c.presented := rfl

@[simp]
theorem rise_stalled_transferred (c : Channel α) (next : Option α) :
    (c.rise false next).transferred = c.transferred := rfl

@[simp]
theorem presented_rise_ready (c : Channel α) (next : Option α) :
    (c.rise true next).presented = c.presented ++ next.toList := rfl

theorem Holds.next_eq {c : Channel α} {next : Option α} {x : α} (h : c.Holds false next)
    (hx : c.offer = some x) : next = some x := by
  rcases h with h | h | h
  · cases h
  · rw [hx] at h
    cases h
  · rw [h, hx]

theorem Holds.rise_eq {c : Channel α} {next : Option α} {x : α} (h : c.Holds false next)
    (hx : c.offer = some x) : c.rise false next = c := by
  cases c with
  | mk offer transferred =>
    rw [rise, h.next_eq hx]
    simp_all

end Channel
end OpenNpux.Lib
