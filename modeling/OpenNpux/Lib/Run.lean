import Mathlib.Data.List.Basic

/-!
# Runs of a state machine under an environment

A machine is a step function on states, and a run is driven by a list of
environment inputs. An admitted run is one whose every input is legal in the
state where it is taken, so whatever legal steps preserve holds at its end. A measure that
counted steps lower and no step raises bounds how many of them a run can take; where some
step lowers it as long as it is not zero, a run no longer than the measure ends at zero.
-/

namespace OpenNpux.Lib

universe u v

variable {σ : Type u} {ι : Type v} {step : σ → ι → σ} {legal narrow : σ → ι → Prop}

def Admits (legal : σ → ι → Prop) (step : σ → ι → σ) : σ → List ι → Prop
  | _, [] => True
  | s, i :: is => legal s i ∧ Admits legal step (step s i) is

instance Admits.decidable [∀ s i, Decidable (legal s i)] :
    (s : σ) → (is : List ι) → Decidable (Admits legal step s is)
  | _, [] => .isTrue trivial
  | s, i :: is =>
    have := Admits.decidable (step s i) is
    inferInstanceAs (Decidable (legal s i ∧ Admits legal step (step s i) is))

theorem Admits.invariant {I : σ → Prop} {s : σ} {is : List ι}
    (h : Admits legal step s is) (hs : I s)
    (hstep : ∀ s i, I s → legal s i → I (step s i)) : I (is.foldl step s) := by
  induction is generalizing s with
  | nil => exact hs
  | cons i is ih => exact ih h.2 (hstep s i hs h.1)

theorem Admits.append {s : σ} {is js : List ι} :
    Admits legal step s (is ++ js) ↔
      Admits legal step s is ∧ Admits legal step (is.foldl step s) js := by
  induction is generalizing s with
  | nil => simp [Admits]
  | cons i is ih => simp [Admits, ih, and_assoc]

theorem Admits.mono {s : σ} {is : List ι} (h : Admits legal step s is)
    (hWider : ∀ s i, legal s i → narrow s i) : Admits narrow step s is := by
  induction is generalizing s with
  | nil => trivial
  | cons i is ih => exact ⟨hWider s i h.1, ih h.2⟩

theorem Admits.and {s : σ} {is : List ι} (h : Admits legal step s is)
    (h' : Admits narrow step s is) : Admits (fun s i => legal s i ∧ narrow s i) step s is := by
  induction is generalizing s with
  | nil => trivial
  | cons i is ih => exact ⟨⟨h.1, h'.1⟩, ih h.2 h'.2⟩

/-! ## Runs down a measure -/

section Measure

variable {allowed : ι → Prop} {f : σ → Nat}

theorem Admits.countP_le {counted : ι → Bool}
    (hStep : ∀ s i, legal s i → allowed i → f (step s i) + (counted i).toNat ≤ f s) {s : σ}
    {is : List ι} (h : Admits legal step s is) (hAllowed : ∀ i ∈ is, allowed i) :
    is.countP counted ≤ f s := by
  induction is generalizing s with
  | nil => exact Nat.zero_le _
  | cons i is ih =>
    obtain ⟨hFirst, hRest⟩ := List.forall_mem_cons.1 hAllowed
    have hDown := hStep s i h.1 hFirst
    have hLater := ih h.2 hRest
    rw [List.countP_cons]
    cases hCounted : counted i with
    | true =>
      rw [hCounted, Bool.toNat_true] at hDown
      rw [if_pos rfl]
      omega
    | false =>
      rw [if_neg Bool.false_ne_true]
      omega

/-- A run to the bottom of the measure. -/
theorem exists_admits_bottom {I : σ → Prop} (hKeep : ∀ s i, I s → legal s i → I (step s i))
    (hDown : ∀ s, I s → f s ≠ 0 → ∃ i, allowed i ∧ legal s i ∧ f (step s i) < f s)
    {s : σ} (hs : I s) :
    ∃ is : List ι, is.length ≤ f s ∧ (∀ i ∈ is, allowed i) ∧ Admits legal step s is ∧
      f (is.foldl step s) = 0 := by
  induction hMeasure : f s using Nat.strongRecOn generalizing s with
  | ind n ih =>
    by_cases hBottom : f s = 0
    · exact ⟨[], Nat.zero_le _, fun _ h => absurd h List.not_mem_nil, trivial, hBottom⟩
    · obtain ⟨i, hAllowed, hLegal, hLess⟩ := hDown s hs hBottom
      obtain ⟨is, hLength, hRest, hAdmits, hZero⟩ :=
        ih _ (hMeasure ▸ hLess) (hKeep s i hs hLegal) rfl
      refine ⟨i :: is, ?_, List.forall_mem_cons.2 ⟨hAllowed, hRest⟩, ⟨hLegal, hAdmits⟩, hZero⟩
      rw [List.length_cons]
      omega

end Measure
end OpenNpux.Lib
