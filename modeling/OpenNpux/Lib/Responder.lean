import Mathlib.Data.List.Basic

/-!
# A source that learns of a transfer one edge late

The source of a valid/ready channel keeps its payloads in a queue and drives the oldest one
at each falling edge. It never sees the rising edge at which the sink takes the payload: it
samples the ready bit right after driving, and removes the payload at the next falling edge.
Payloads may be queued at any time between the two.
-/

namespace OpenNpux.Lib

structure Responder (α : Type) where
  queue : List α
  handshake : Bool
  valid : Bool
  payload : α

namespace Responder

variable {α : Type}

def push (r : Responder α) (a : α) : Responder α := { r with queue := r.queue ++ [a] }

/-- The queue once a payload that was taken has been removed. -/
def retired (r : Responder α) : List α := if r.handshake then r.queue.tail else r.queue

def fall (r : Responder α) (ready : Bool) : Responder α where
  queue := r.retired
  handshake := !r.retired.isEmpty && ready
  valid := !r.retired.isEmpty
  payload := r.retired.headD r.payload

/-- What the sink takes at the next rising edge. -/
def taken (r : Responder α) (ready : Bool) : Option α :=
  if r.valid && ready then some r.payload else none

/-- The payload on the wires is the oldest one, and the source knows whether it is taken. -/
structure Faithful (r : Responder α) (ready : Bool) : Prop where
  handshake : r.handshake = (r.valid && ready)
  oldest : r.valid = true → r.queue.head? = some r.payload

theorem Faithful.push {r : Responder α} {ready : Bool} (h : r.Faithful ready) (a : α) :
    (r.push a).Faithful ready := by
  constructor
  · exact h.handshake
  · intro hValid
    have hOldest := h.oldest hValid
    obtain ⟨rest, hQueue⟩ := List.head?_eq_some_iff.1 hOldest
    simp [Responder.push, hQueue]

theorem faithful_fall (r : Responder α) (ready : Bool) : (r.fall ready).Faithful ready := by
  constructor
  · rfl
  · intro hValid
    cases hQueue : r.retired with
    | nil => simp [fall, hQueue] at hValid
    | cons a rest => simp [fall, hQueue]

theorem Faithful.queue_ne_nil {r : Responder α} {ready : Bool} (h : r.Faithful ready)
    (hHandshake : r.handshake = true) : r.queue ≠ [] := by
  rw [h.handshake, Bool.and_eq_true] at hHandshake
  obtain ⟨rest, hQueue⟩ := List.head?_eq_some_iff.1 (h.oldest hHandshake.1)
  simp [hQueue]

/-- What the sink takes is what the source removes. -/
theorem Faithful.taken_append {r : Responder α} {ready : Bool} (h : r.Faithful ready) :
    (r.taken ready).toList ++ r.retired = r.queue := by
  unfold taken retired
  rw [← h.handshake]
  cases hHandshake : r.handshake with
  | false => simp
  | true =>
    rw [h.handshake, Bool.and_eq_true] at hHandshake
    obtain ⟨rest, hQueue⟩ := List.head?_eq_some_iff.1 (h.oldest hHandshake.1)
    simp [hQueue]

/-- A payload that is not taken stays on the wires. -/
theorem Faithful.stalled {r : Responder α} {ready : Bool} (h : r.Faithful ready)
    (hValid : r.valid = true) (hTaken : r.taken ready = none) (ready' : Bool) :
    (r.fall ready').valid = true ∧ (r.fall ready').payload = r.payload := by
  have hHandshake : r.handshake = false := by
    rw [h.handshake]
    by_contra hTrue
    rw [Bool.not_eq_false] at hTrue
    simp [taken, hTrue] at hTaken
  obtain ⟨rest, hQueue⟩ := List.head?_eq_some_iff.1 (h.oldest hValid)
  simp [fall, retired, hHandshake, hQueue]

end Responder

/-! ## Drivers -/

/-- A driver that works as a responder. -/
structure ResponseSource (D α P : Type) where
  view : D → Responder α
  push : D → α → D
  fall : D → P → D
  /-- The ready bit that a falling edge samples. -/
  ready : P → Bool
  view_push : ∀ d a, view (push d a) = (view d).push a
  view_fall : ∀ d pins, view (fall d pins) = (view d).fall (ready pins)

/-- A driver with its sink: the ready bit that the sink holds, and what has been seen. -/
structure Delivery (D α : Type) where
  driver : D
  ready : Bool := false
  queued : List α := []
  accepted : List α := []

/-- A response is queued, or the clock goes through a rising and a falling edge. -/
inductive DeliveryStep (α P : Type)
  | queue (a : α)
  | clock (pins : P)

namespace ResponseSource

variable {D α P : Type} (src : ResponseSource D α P)

/-- What the sink takes at the rising edge of the next clock. -/
def taken (s : Delivery D α) : Option α := (src.view s.driver).taken s.ready

def step (s : Delivery D α) : DeliveryStep α P → Delivery D α
  | .queue a => { s with driver := src.push s.driver a, queued := s.queued ++ [a] }
  | .clock pins =>
    { s with
      driver := src.fall s.driver pins
      ready := src.ready pins
      accepted := s.accepted ++ (src.taken s).toList }

/-- What a sink sees of the source. -/
structure Delivers (s : Delivery D α) : Prop where
  /-- The accepted responses are the queued ones, oldest first, up to those still queued. -/
  inOrder : s.queued = s.accepted ++ (src.view s.driver).queue
  /-- The source removes a response only if there is one. -/
  removesSome : (src.view s.driver).handshake = true → (src.view s.driver).queue ≠ []
  /-- A falling edge offers a response if there is one. -/
  offers : ∀ pins, (src.view (src.fall s.driver pins)).valid =
    !(src.view (src.fall s.driver pins)).queue.isEmpty
  queueKeeps : ∀ a, (src.view (src.push s.driver a)).valid = (src.view s.driver).valid ∧
    (src.view (src.push s.driver a)).payload = (src.view s.driver).payload
  stallKeeps : ∀ pins, (src.view s.driver).valid = true → src.taken s = none →
    (src.view (src.fall s.driver pins)).valid = true ∧
      (src.view (src.fall s.driver pins)).payload = (src.view s.driver).payload

/-- The invariant of a run. -/
structure Invariant (s : Delivery D α) : Prop where
  faithful : (src.view s.driver).Faithful s.ready
  inOrder : s.queued = s.accepted ++ (src.view s.driver).queue

/-- A property of the driver that queueing and falling edges keep. -/
theorem run_driver {Q : D → Prop} (hPush : ∀ d a, Q d → Q (src.push d a))
    (hFall : ∀ d pins, Q d → Q (src.fall d pins)) {s : Delivery D α} (h : Q s.driver)
    (steps : List (DeliveryStep α P)) : Q (steps.foldl src.step s).driver := by
  induction steps generalizing s with
  | nil => exact h
  | cons x steps ih =>
    cases x with
    | queue a => exact ih (hPush _ a h)
    | clock pins => exact ih (hFall _ pins h)

theorem invariant_init {d : D} (hQueue : (src.view d).queue = [])
    (hHandshake : (src.view d).handshake = false) (hValid : (src.view d).valid = false) :
    src.Invariant { driver := d } := by
  constructor
  · constructor
    · rw [hHandshake, hValid, Bool.false_and]
    · intro hTrue
      rw [hValid] at hTrue
      cases hTrue
  · exact hQueue.symm

variable {src}

theorem Invariant.step {s : Delivery D α} (h : src.Invariant s) (x : DeliveryStep α P) :
    src.Invariant (src.step s x) := by
  cases x with
  | queue a =>
    constructor
    · rw [ResponseSource.step, src.view_push]
      exact h.faithful.push a
    · rw [ResponseSource.step, src.view_push, h.inOrder]
      exact List.append_assoc _ _ _
  | clock pins =>
    constructor
    · rw [ResponseSource.step, src.view_fall]
      exact Responder.faithful_fall _ _
    · rw [ResponseSource.step, src.view_fall, h.inOrder]
      exact (congrArg _ h.faithful.taken_append.symm).trans (List.append_assoc _ _ _).symm

theorem Invariant.run {s : Delivery D α} (h : src.Invariant s) (steps : List (DeliveryStep α P)) :
    src.Invariant (steps.foldl src.step s) := by
  induction steps generalizing s with
  | nil => exact h
  | cons x steps ih => exact ih (h.step x)

theorem Invariant.delivers {s : Delivery D α} (h : src.Invariant s) : src.Delivers s where
  inOrder := h.inOrder
  removesSome := h.faithful.queue_ne_nil
  offers pins := by
    rw [src.view_fall]
    rfl
  queueKeeps a := by
    rw [src.view_push]
    exact ⟨rfl, rfl⟩
  stallKeeps pins hValid hTaken := by
    rw [src.view_fall]
    exact h.faithful.stalled hValid hTaken (src.ready pins)

end ResponseSource
end OpenNpux.Lib
