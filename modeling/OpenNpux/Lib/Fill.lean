import OpenNpux.Lib.Bytes
import OpenNpux.Lib.Lockstep

/-!
# Loops that compute and loops that fill

A program evaluates to a value at a state if it returns that value and changes nothing;
a loop of such programs runs through the values of its accumulator, and a loop of checks
returns if every round does. A loop that stores one
result in each round fills a memory: every byte that has changed holds the value of
the key whose place it is, so distinct places keep what was stored there.
-/

namespace OpenNpux.Lib

namespace Prog

variable {σ ε α β : Type}

/-- At `s` the program returns `a` and changes nothing. -/
def Evaluates (p : Prog σ ε α) (s : σ) (a : α) : Prop := (p s).result = some a ∧ (p s).state = s

namespace Evaluates

variable {s : σ} {a : α} {b : β}

theorem pure (a : α) (s : σ) : Evaluates (Pure.pure a : Prog σ ε α) s a := ⟨rfl, rfl⟩

theorem bind {p : Prog σ ε α} {f : α → Prog σ ε β} (hp : Evaluates p s a)
    (hf : Evaluates (f a) s b) : Evaluates (p >>= f) s b := by
  rw [Evaluates, bind_returned hp.1, hp.2]
  exact hf

theorem bind_result {p : Prog σ ε α} (hp : Evaluates p s a) (f : α → Prog σ ε β) :
    ((p >>= f) s).result = (f a s).result := by
  rw [bind_returned hp.1, hp.2]

theorem mem_bind_trace {p : Prog σ ε α} {f : α → Prog σ ε β} {e : ε} (hp : Evaluates p s a)
    (he : e ∈ (f a s).trace) : e ∈ ((p >>= f) s).trace := by
  rw [bind_trace hp.1, hp.2]
  exact List.mem_append_right _ he

/-- The accumulator runs through a known sequence. -/
theorem loop {n : Nat} {a b : α} {body : Nat → α → Prog σ ε α} (g : Nat → α) (hFirst : g 0 = a)
    (hLast : g n = b) (hBody : ∀ i < n, Evaluates (body i (g i)) s (g (i + 1))) :
    Evaluates (Prog.loop n a body) s b := by
  subst hFirst hLast
  induction n with
  | zero => exact pure _ _
  | succ n ih => exact bind (ih fun i hi => hBody i (by omega)) (hBody n (by omega))

theorem runs_bind {p : Prog σ ε α} {f : α → Prog σ ε β} {post : β → σ → Prop}
    (hp : Evaluates p s a) (hf : Runs (fun _ => True) (f a) s post) :
    Runs (fun _ => True) (p >>= f) s post := by
  refine ⟨fun _ _ => trivial, ?_⟩
  rw [bind_returned hp.1, hp.2]
  exact hf.2

end Evaluates

/-- At `s` the program changes nothing, and returns just when `c` holds. -/
def Checks (p : Prog σ ε Unit) (s : σ) (c : Prop) : Prop :=
  (p s).state = s ∧ ((p s).result = some () ↔ c)

namespace Checks

variable {s : σ}

theorem require (b : Bool) (s : σ) : Checks (Prog.require b : Prog σ ε Unit) s (b = true) := by
  refine ⟨rfl, ?_⟩
  cases b <;> simp

theorem after {p : Prog σ ε α} {f : α → Prog σ ε Unit} {a : α} {c : Prop} (hp : Evaluates p s a)
    (hf : Checks (f a) s c) : Checks (p >>= f) s c := by
  rw [Checks, bind_returned hp.1, hp.2]
  exact hf

theorem loop {n : Nat} {body : Nat → Unit → Prog σ ε Unit} {c : Nat → Prop}
    (h : ∀ i < n, Checks (body i ()) s (c i)) : Checks (Prog.loop n () body) s (∀ i < n, c i) := by
  induction n with
  | zero => exact ⟨rfl, iff_of_true rfl fun i hi => absurd hi (Nat.not_lt_zero i)⟩
  | succ n ih =>
    obtain ⟨hState, hBefore⟩ := ih fun i hi => h i (by omega)
    obtain ⟨hLastState, hLast⟩ := h n (by omega)
    have hSplit : (∀ i < n + 1, c i) ↔ (∀ i < n, c i) ∧ c n := Nat.forall_lt_succ_right
    rw [Checks, hSplit, ← hBefore, ← hLast, Prog.loop]
    cases hResult : (Prog.loop n () body s).result with
    | none =>
      rw [bind_rejected hResult]
      exact ⟨hState, by simp⟩
    | some _ =>
      rw [bind_returned hResult, hState]
      exact ⟨hLastState, by simp⟩

theorem evaluates {p : Prog σ ε Unit} {c : Prop} (h : Checks p s c) (hc : c) :
    Evaluates p s () :=
  ⟨h.2.2 hc, h.1⟩

theorem rejects {p : Prog σ ε Unit} {c : Prop} (h : Checks p s c) (hc : ¬c) :
    (p s).result = none := by
  cases hResult : (p s).result with
  | none => rfl
  | some _ => exact absurd (h.2.1 hResult) hc

end Checks

/-- Each round establishes a fact of its own, and no round undoes those of the others. -/
theorem Runs.each {ok : ε → Prop} {R : σ → σ → Prop} [IsPreorder σ R] {D : Nat → σ → Prop}
    {n : Nat} {s : σ} {body : Nat → Unit → Prog σ ε Unit}
    (hKeep : ∀ i < n, ∀ s s', R s s' → D i s → D i s')
    (hBody : ∀ i < n, ∀ s', R s s' → Runs ok (body i ()) s' fun _ s'' => R s' s'' ∧ D i s'') :
    Runs ok (Prog.loop n () body) s fun _ s' => R s s' ∧ ∀ i < n, D i s' := by
  apply Runs.loop (I := fun k _ s' => R s s' ∧ ∀ i < k, D i s')
  · exact ⟨refl s, fun i hi => absurd hi (Nat.not_lt_zero i)⟩
  · rintro k hk _ s' ⟨hReached, hDone⟩
    apply (hBody k hk s' hReached).mono
    rintro _ s'' ⟨hStep, hNew⟩
    refine ⟨IsTrans.trans _ _ _ hReached hStep, fun i hi => ?_⟩
    rcases Nat.lt_succ_iff_lt_or_eq.1 hi with hLess | rfl
    · exact hKeep i (by omega) s' s'' hStep (hDone i hLess)
    · exact hNew

end Prog

namespace ByteMem

variable {ι : Type} {K : ι → Prop} {place : ι → Nat} {value : ι → UInt8} {m m' : ByteMem}

/-- Every byte that has changed holds the value of a key whose place it is. -/
def Filled (K : ι → Prop) (place : ι → Nat) (value : ι → UInt8) (m m' : ByteMem) : Prop :=
  ∀ a, m' a = m a ∨ ∃ k, K k ∧ place k = a ∧ m' a = value k

instance : IsPreorder ByteMem (Filled K place value) where
  refl _ _ := .inl rfl
  trans m m' m'' h h' a := by
    rcases h' a with hSame | hNew
    · rw [hSame]
      exact h a
    · exact .inr hNew

theorem Filled.storeWord (m : ByteMem) {k : ι} {v : Nat} (hk : K k) (hv : bytesOf v 0 = value k) :
    Filled K place value m (m.storeWord (place k) 1 v) := by
  intro a
  by_cases ha : place k ≤ a ∧ a < place k + 1
  · obtain rfl : place k = a := by omega
    refine .inr ⟨k, hk, rfl, ?_⟩
    rw [ByteMem.storeWord, store_inside _ _ ha, Nat.sub_self, hv]
  · exact .inl (store_outside _ _ ha)

theorem Filled.outside (h : Filled K place value m m') {a : Nat} (ha : ∀ k, K k → place k ≠ a) :
    m' a = m a :=
  (h a).resolve_right fun ⟨k, hk, hPlace, _⟩ => ha k hk hPlace

theorem Filled.kept (h : Filled K place value m m')
    (hPlaces : ∀ k k', K k → K k' → place k = place k' → k = k') {k : ι} (hk : K k)
    (hDone : m (place k) = value k) : m' (place k) = value k := by
  rcases h (place k) with hSame | ⟨k', hk', hPlace, hNew⟩
  · rw [hSame, hDone]
  · rwa [hPlaces k' k hk' hk hPlace] at hNew

end ByteMem
end OpenNpux.Lib
