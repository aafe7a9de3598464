import OpenNpux.Lib.Prog
import Mathlib.Order.Defs.Unbundled

/-!
# Two runs side by side

Two programs are in lockstep from a pair of states if both return the same value, or are
both rejected, and leave related states. `Grows` is about one program: the state it
leaves, whether it returns or not, is above the one it started from. A program commutes with a
change of the state that it does not see.
-/

namespace OpenNpux.Lib.Prog

variable {σ τ ε ε' α β : Type}

def Lockstep (R : σ → τ → Prop) (p : Prog σ ε α) (s : σ) (q : Prog τ ε' α) (t : τ) : Prop :=
  (p s).result = (q t).result ∧ R (p s).state (q t).state

namespace Lockstep

variable {R : σ → τ → Prop} {s : σ} {t : τ}

theorem pure (a : α) (h : R s t) :
    Lockstep R (Pure.pure a : Prog σ ε α) s (Pure.pure a : Prog τ ε' α) t :=
  ⟨rfl, h⟩

theorem modify {f : σ → σ} {g : τ → τ} (h : R (f s) (g t)) :
    Lockstep R (Prog.modify f : Prog σ ε Unit) s (Prog.modify g : Prog τ ε' Unit) t :=
  ⟨rfl, h⟩

theorem emit (e : ε) (e' : ε') (h : R s t) : Lockstep R (Prog.emit e) s (Prog.emit e') t :=
  ⟨rfl, h⟩

theorem require (b : Bool) (h : R s t) :
    Lockstep R (Prog.require b : Prog σ ε Unit) s (Prog.require b : Prog τ ε' Unit) t :=
  ⟨rfl, h⟩

theorem bind {p : Prog σ ε α} {q : Prog τ ε' α} {f : α → Prog σ ε β} {g : α → Prog τ ε' β}
    (h : Lockstep R p s q t) (hRest : ∀ a s t, R s t → Lockstep R (f a) s (g a) t) :
    Lockstep R (p >>= f) s (q >>= g) t := by
  obtain ⟨hResult, hState⟩ := h
  unfold Lockstep
  cases hp : (p s).result with
  | none =>
    rw [bind_rejected hp, bind_rejected (hResult.symm.trans hp)]
    exact ⟨rfl, hState⟩
  | some a =>
    rw [bind_returned hp, bind_returned (hResult.symm.trans hp)]
    exact hRest a _ _ hState

theorem get_bind {f : σ → Prog σ ε β} {g : τ → Prog τ ε' β} (h : Lockstep R (f s) s (g t) t) :
    Lockstep R (Prog.get >>= f) s (Prog.get >>= g) t := h

theorem ite {c c' : Prop} [Decidable c] [Decidable c'] {p p' : Prog σ ε α} {q q' : Prog τ ε' α}
    (hc : c ↔ c') (hp : Lockstep R p s q t) (hq : Lockstep R p' s q' t) :
    Lockstep R (if c then p else p') s (if c' then q else q') t := by
  by_cases h : c
  · rw [if_pos h, if_pos (hc.mp h)]
    exact hp
  · rw [if_neg h, if_neg (fun h' => h (hc.mpr h'))]
    exact hq

theorem loop {n : Nat} {a : α} {body : Nat → α → Prog σ ε α} {body' : Nat → α → Prog τ ε' α}
    (h : R s t) (hBody : ∀ i a s t, R s t → Lockstep R (body i a) s (body' i a) t) :
    Lockstep R (Prog.loop n a body) s (Prog.loop n a body') t := by
  induction n with
  | zero => exact pure a h
  | succ n ih => exact bind ih fun a _ _ hState => hBody n a _ _ hState

theorem congr {p p' : Prog σ ε α} {q q' : Prog τ ε' α} {s' : σ} {t' : τ} (hp : p s = p' s')
    (hq : q t = q' t') (h : Lockstep R p' s' q' t') : Lockstep R p s q t := by
  rwa [Lockstep, hp, hq]

theorem trans {υ ε'' : Type} {S : τ → υ → Prop} {T : σ → υ → Prop} {u : υ} {p : Prog σ ε α}
    {q : Prog τ ε' α} {r : Prog υ ε'' α} (h : Lockstep R p s q t) (h' : Lockstep S q t r u)
    (hTrans : ∀ s t u, R s t → S t u → T s u) : Lockstep T p s r u :=
  ⟨h.1.trans h'.1, hTrans _ _ _ h.2 h'.2⟩

end Lockstep

/-! ## States that only grow -/

def Grows (P : σ → σ → Prop) (p : Prog σ ε α) : Prop := ∀ s, P s (p s).state

namespace Grows

variable {P : σ → σ → Prop} [IsPreorder σ P]

theorem pure (a : α) : Grows P (Pure.pure a : Prog σ ε α) := refl

omit [IsPreorder σ P] in
theorem modify {f : σ → σ} (h : ∀ s, P s (f s)) : Grows P (Prog.modify f : Prog σ ε Unit) := h

theorem emit (e : ε) : Grows P (Prog.emit e) := refl

theorem bind {p : Prog σ ε α} {f : α → Prog σ ε β} (hp : Grows P p) (hf : ∀ a, Grows P (f a)) :
    Grows P (p >>= f) := by
  intro s
  cases hResult : (p s).result with
  | none =>
    rw [bind_rejected hResult]
    exact hp s
  | some a =>
    rw [bind_returned hResult]
    exact IsTrans.trans _ _ _ (hp s) (hf a _)

theorem get_bind {f : σ → Prog σ ε β} (h : ∀ s, Grows P (f s)) : Grows P (Prog.get >>= f) :=
  bind refl h

omit [IsPreorder σ P] in
theorem ite {c : Prop} [Decidable c] {p q : Prog σ ε α} (hp : Grows P p) (hq : Grows P q) :
    Grows P (if c then p else q) := by
  split
  · exact hp
  · exact hq

omit [IsPreorder σ P] in
theorem attempt {p : Prog σ ε Unit} (h : Grows P p) : Grows P p.attempt := h

theorem require (b : Bool) : Grows P (Prog.require b : Prog σ ε Unit) := refl

theorem loop {n : Nat} {a : α} {body : Nat → α → Prog σ ε α}
    (h : ∀ i < n, ∀ a, Grows P (body i a)) : Grows P (Prog.loop n a body) := by
  induction n with
  | zero => exact pure a
  | succ n ih => exact bind (ih fun i hi => h i (by omega)) (h n (by omega))

omit [IsPreorder σ P] in
theorem ensures {p : Prog σ ε α} (h : Grows P p) (s : σ) :
    Ensures (fun _ => True) p s fun _ s' => P s s' :=
  ⟨fun _ _ => trivial, fun _ _ => h s⟩

end Grows

/-! ## Changes that are not seen -/

/-- From a state with the invariant the program does the same before and after the change. -/
def Commutes (I : σ → Prop) (f : σ → σ) (p : Prog σ ε α) : Prop :=
  ∀ s, I s → I (p s).state ∧ p (f s) = ⟨(p s).result, f (p s).state, (p s).trace⟩

namespace Commutes

variable {I : σ → Prop} {f : σ → σ}

theorem pure (a : α) : Commutes I f (Pure.pure a : Prog σ ε α) := fun _ h => ⟨h, rfl⟩

theorem emit (e : ε) : Commutes I f (Prog.emit e) := fun _ h => ⟨h, rfl⟩

theorem require (b : Bool) : Commutes I f (Prog.require b : Prog σ ε Unit) := fun _ h => ⟨h, rfl⟩

theorem modify {g : σ → σ} (h : ∀ s, I s → I (g s) ∧ g (f s) = f (g s)) :
    Commutes I f (Prog.modify g : Prog σ ε Unit) := by
  intro s hs
  refine ⟨(h s hs).1, ?_⟩
  rw [modify_apply, (h s hs).2]
  rfl

theorem bind {p : Prog σ ε α} {q : α → Prog σ ε β} (hp : Commutes I f p)
    (hq : ∀ a, Commutes I f (q a)) : Commutes I f (p >>= q) := by
  intro s hs
  obtain ⟨hState, hSame⟩ := hp s hs
  cases hResult : (p s).result with
  | none =>
    rw [bind_rejected hResult, bind_rejected (by rw [hSame, hResult]), hSame]
    exact ⟨hState, rfl⟩
  | some a =>
    obtain ⟨hState', hSame'⟩ := hq a _ hState
    rw [bind_returned hResult, bind_returned (by rw [hSame, hResult]), hSame]
    dsimp only
    rw [hSame']
    exact ⟨hState', rfl⟩

theorem get_bind {q : σ → Prog σ ε β} (hSame : ∀ s, q (f s) = q s) (h : ∀ s, Commutes I f (q s)) :
    Commutes I f (Prog.get >>= q) := by
  intro s hs
  rw [Prog.get_bind, Prog.get_bind, hSame]
  exact h s s hs

theorem ite {c : Prop} [Decidable c] {p q : Prog σ ε α} (hp : Commutes I f p)
    (hq : Commutes I f q) : Commutes I f (if c then p else q) := by
  split
  · exact hp
  · exact hq

end Commutes

end OpenNpux.Lib.Prog
