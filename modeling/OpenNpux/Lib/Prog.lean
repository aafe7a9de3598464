import Mathlib.Data.List.Basic

/-!
# Imperative programs with a trace

A program changes a state, emits events and either returns a value or is rejected,
keeping the state and the events it has reached. Counted loops carry an accumulator.
`Sat` is the triple of the logic: under its precondition every event is allowed and a
returned value meets the postcondition. `Total` excludes rejection, and `Reaches`
says that an event is certain to occur.
-/

namespace OpenNpux.Lib

structure Outcome (σ ε α : Type) where
  result : Option α
  state : σ
  trace : List ε

def Prog (σ ε α : Type) := σ → Outcome σ ε α

namespace Prog

variable {σ ε α β : Type}

instance : Monad (Prog σ ε) where
  pure a := fun s => ⟨some a, s, []⟩
  bind p f := fun s =>
    match (p s).result with
    | none => ⟨none, (p s).state, (p s).trace⟩
    | some a =>
      let o := f a (p s).state
      ⟨o.result, o.state, (p s).trace ++ o.trace⟩

def get : Prog σ ε σ := fun s => ⟨some s, s, []⟩

def modify (f : σ → σ) : Prog σ ε Unit := fun s => ⟨some (), f s, []⟩

def emit (e : ε) : Prog σ ε Unit := fun s => ⟨some (), s, [e]⟩

def require (b : Bool) : Prog σ ε Unit := fun s => ⟨if b then some () else none, s, []⟩

/-- Turns rejection into the returned value `false`. -/
def attempt (p : Prog σ ε Unit) : Prog σ ε Bool := fun s =>
  ⟨some (p s).result.isSome, (p s).state, (p s).trace⟩

/-- Runs the second program from where the first was rejected. -/
def orElse (p q : Prog σ ε α) : Prog σ ε α := fun s =>
  match (p s).result with
  | some a => ⟨some a, (p s).state, (p s).trace⟩
  | none =>
    let o := q (p s).state
    ⟨o.result, o.state, (p s).trace ++ o.trace⟩

def when (c : Bool) (p : Prog σ ε Unit) : Prog σ ε Unit := if c then p else pure ()

/-- The counted loop `for (i = 0; i < n; ++i)` with an accumulator. -/
def loop : Nat → α → (Nat → α → Prog σ ε α) → Prog σ ε α
  | 0, a, _ => pure a
  | n + 1, a, body => loop n a body >>= body n

theorem loop_congr {n : Nat} {a : α} {body body' : Nat → α → Prog σ ε α}
    (h : ∀ i < n, ∀ b, body i b = body' i b) : loop n a body = loop n a body' := by
  induction n with
  | zero => rfl
  | succ n ih =>
    rw [loop, loop, ih fun i hi => h i (Nat.lt_succ_of_lt hi)]
    exact congrArg _ (funext fun b => h n (Nat.lt_succ_self n) b)

@[simp]
theorem pure_apply (a : α) (s : σ) : (pure a : Prog σ ε α) s = ⟨some a, s, []⟩ := rfl

theorem bind_apply (p : Prog σ ε α) (f : α → Prog σ ε β) (s : σ) :
    (p >>= f) s = match (p s).result with
      | none => ⟨none, (p s).state, (p s).trace⟩
      | some a => ⟨(f a (p s).state).result, (f a (p s).state).state,
          (p s).trace ++ (f a (p s).state).trace⟩ := rfl

theorem bind_returned {p : Prog σ ε α} {s : σ} {a : α} (h : (p s).result = some a)
    (f : α → Prog σ ε β) :
    (p >>= f) s = ⟨(f a (p s).state).result, (f a (p s).state).state,
      (p s).trace ++ (f a (p s).state).trace⟩ := by
  rw [bind_apply, h]

theorem bind_of_apply {p : Prog σ ε α} {f : α → Prog σ ε β} {s s' : σ} {a : α} {t : List ε}
    (hp : p s = ⟨some a, s', t⟩) :
    (p >>= f) s = ⟨(f a s').result, (f a s').state, t ++ (f a s').trace⟩ := by
  rw [bind_returned (by rw [hp]), hp]

/-- A program without an event. -/
theorem bind_silent {p : Prog σ ε α} {f : α → Prog σ ε β} {s s' : σ} {a : α}
    (hp : p s = ⟨some a, s', []⟩) : (p >>= f) s = f a s' :=
  bind_of_apply hp

theorem bind_rejected {p : Prog σ ε α} {s : σ} (h : (p s).result = none) (f : α → Prog σ ε β) :
    (p >>= f) s = ⟨none, (p s).state, (p s).trace⟩ := by
  rw [bind_apply, h]

theorem returned_of_bind {p : Prog σ ε α} {f : α → Prog σ ε β} {s : σ} {b : β}
    (h : ((p >>= f) s).result = some b) : ∃ a, (p s).result = some a := by
  cases hResult : (p s).result with
  | none =>
    rw [bind_rejected hResult] at h
    cases h
  | some a => exact ⟨a, rfl⟩

theorem mem_bind_trace {e : ε} {p : Prog σ ε α} {s : σ} (h : e ∈ (p s).trace)
    (f : α → Prog σ ε β) : e ∈ ((p >>= f) s).trace := by
  cases hResult : (p s).result with
  | none =>
    rw [bind_rejected hResult]
    exact h
  | some a =>
    rw [bind_returned hResult]
    exact List.mem_append_left _ h

theorem bind_trace {p : Prog σ ε α} {s : σ} {a : α} (h : (p s).result = some a)
    (f : α → Prog σ ε β) : ((p >>= f) s).trace = (p s).trace ++ (f a (p s).state).trace := by
  rw [bind_returned h]

@[simp]
theorem get_apply (s : σ) : (get : Prog σ ε σ) s = ⟨some s, s, []⟩ := rfl

theorem get_bind (f : σ → Prog σ ε β) (s : σ) : (get >>= f) s = f s s := rfl

@[simp]
theorem modify_apply (f : σ → σ) (s : σ) : (modify f : Prog σ ε Unit) s = ⟨some (), f s, []⟩ := rfl

@[simp]
theorem emit_apply (e : ε) (s : σ) : emit e s = ⟨some (), s, [e]⟩ := rfl

@[simp]
theorem require_apply (b : Bool) (s : σ) :
    (require b : Prog σ ε Unit) s = ⟨if b then some () else none, s, []⟩ := rfl

theorem require_true_bind (f : Unit → Prog σ ε β) : (require true >>= f) = f () := rfl

theorem attempt_trace (p : Prog σ ε Unit) (s : σ) : (p.attempt s).trace = (p s).trace := rfl

/-! ## The triple -/

def Sat (pre : σ → Prop) (ok : ε → Prop) (p : Prog σ ε α) (post : α → σ → Prop) : Prop :=
  ∀ s, pre s → (∀ e ∈ (p s).trace, ok e) ∧ ∀ a, (p s).result = some a → post a (p s).state

variable {pre pre' : σ → Prop} {ok : ε → Prop} {post post' : α → σ → Prop}

theorem Sat.conseq {p : Prog σ ε α} (h : Sat pre' ok p post')
    (hPre : ∀ s, pre s → pre' s) (hPost : ∀ a s, post' a s → post a s) : Sat pre ok p post :=
  fun s hs => ⟨(h s (hPre s hs)).1, fun a ha => hPost a _ ((h s (hPre s hs)).2 a ha)⟩

theorem Sat.pure {a : α} (h : ∀ s, pre s → post a s) :
    Sat pre ok (Pure.pure a : Prog σ ε α) post := by
  intro s hs
  refine ⟨by simp, ?_⟩
  intro b hb
  cases hb
  exact h s hs

theorem Sat.bind {p : Prog σ ε α} {f : α → Prog σ ε β} {Q : α → σ → Prop}
    {post : β → σ → Prop} (hp : Sat pre ok p Q) (hf : ∀ a, Sat (Q a) ok (f a) post) :
    Sat pre ok (p >>= f) post := by
  intro s hs
  obtain ⟨hTrace, hMid⟩ := hp s hs
  cases hResult : (p s).result with
  | none =>
    rw [bind_rejected hResult]
    exact ⟨hTrace, fun _ h => by cases h⟩
  | some a =>
    obtain ⟨hTrace', hPost⟩ := hf a _ (hMid a hResult)
    rw [bind_returned hResult]
    refine ⟨?_, hPost⟩
    intro e he
    rcases List.mem_append.mp he with he | he
    · exact hTrace e he
    · exact hTrace' e he

theorem Sat.loop {I : Nat → α → σ → Prop} {n : Nat} {a : α} {body : Nat → α → Prog σ ε α}
    (hInit : ∀ s, pre s → I 0 a s)
    (hBody : ∀ i < n, ∀ b, Sat (I i b) ok (body i b) (I (i + 1))) :
    Sat pre ok (loop n a body) (I n) := by
  induction n with
  | zero => exact Sat.pure hInit
  | succ n ih => exact (ih fun i hi => hBody i (by omega)).bind fun b => hBody n (by omega) b

theorem Sat.get {post : σ → σ → Prop} (h : ∀ s, pre s → post s s) :
    Sat pre ok (get : Prog σ ε σ) post := by
  intro s hs
  refine ⟨by simp, ?_⟩
  intro b hb
  cases hb
  exact h s hs

theorem Sat.modify {f : σ → σ} {post : Unit → σ → Prop} (h : ∀ s, pre s → post () (f s)) :
    Sat pre ok (modify f : Prog σ ε Unit) post :=
  fun s hs => ⟨by simp, fun _ _ => h s hs⟩

theorem Sat.emit {e : ε} {post : Unit → σ → Prop} (he : ok e) (h : ∀ s, pre s → post () s) :
    Sat pre ok (emit e) post := by
  intro s hs
  refine ⟨?_, fun _ _ => h s hs⟩
  intro e' he'
  rw [List.mem_singleton.mp he']
  exact he

theorem Sat.require {b : Bool} {post : Unit → σ → Prop} (h : b = true → ∀ s, pre s → post () s) :
    Sat pre ok (require b : Prog σ ε Unit) post := by
  intro s hs
  refine ⟨by simp, ?_⟩
  intro u hu
  cases b with
  | true => exact h rfl s hs
  | false => cases hu

theorem Sat.guard (b : Bool) : Sat pre ok (Prog.require b : Prog σ ε Unit) fun _ => pre :=
  Sat.require fun _ _ hs => hs

theorem Sat.ite {c : Prop} [Decidable c] {p q : Prog σ ε α} (hp : c → Sat pre ok p post)
    (hq : ¬c → Sat pre ok q post) : Sat pre ok (if c then p else q) post := by
  split
  · exact hp ‹c›
  · exact hq ‹¬c›

/-! ## The triple at one state -/

/-- From `s` every event is allowed and a returned value meets the postcondition. -/
def Ensures (ok : ε → Prop) (p : Prog σ ε α) (s : σ) (post : α → σ → Prop) : Prop :=
  (∀ e ∈ (p s).trace, ok e) ∧ ∀ a, (p s).result = some a → post a (p s).state

section Ensures

variable {s : σ} {post : β → σ → Prop} {f : α → Prog σ ε β}

theorem Ensures.mono {p : Prog σ ε α} {post post' : α → σ → Prop} (h : Ensures ok p s post)
    (hPost : ∀ a s, post a s → post' a s) : Ensures ok p s post' :=
  ⟨h.1, fun a ha => hPost a _ (h.2 a ha)⟩

theorem Ensures.congr {p q : Prog σ ε α} {post : α → σ → Prop} (hSame : p s = q s)
    (h : Ensures ok q s post) : Ensures ok p s post := by
  rwa [Ensures, hSame]

theorem Ensures.trivial {p : Prog σ ε α} : Ensures (fun _ => True) p s fun _ _ => True :=
  ⟨fun _ _ => True.intro, fun _ _ => True.intro⟩

theorem Ensures.anyEvent {p : Prog σ ε α} {post : α → σ → Prop} (h : Ensures ok p s post) :
    Ensures (fun _ => True) p s post :=
  ⟨fun _ _ => True.intro, h.2⟩

theorem Ensures.and {p : Prog σ ε α} {post post' : α → σ → Prop} (h : Ensures ok p s post)
    (h' : Ensures ok p s post') : Ensures ok p s fun a s => post a s ∧ post' a s :=
  ⟨h.1, fun a ha => ⟨h.2 a ha, h'.2 a ha⟩⟩

theorem Ensures.reached {p : Prog σ ε α} {post : α → σ → Prop} (h : Ensures ok p s post) :
    Ensures ok p s fun a s' => s' = (p s).state ∧ post a s' :=
  ⟨h.1, fun a ha => ⟨rfl, h.2 a ha⟩⟩

theorem Ensures.pure {a : α} {post : α → σ → Prop} (h : post a s) :
    Ensures ok (Pure.pure a : Prog σ ε α) s post := by
  refine ⟨by simp, ?_⟩
  intro b hb
  cases hb
  exact h

theorem Ensures.modify {g : σ → σ} {post : Unit → σ → Prop} (h : post () (g s)) :
    Ensures ok (modify g : Prog σ ε Unit) s post :=
  ⟨by simp, fun _ _ => h⟩

theorem Ensures.bind {p : Prog σ ε α} {Q : α → σ → Prop} (hp : Ensures ok p s Q)
    (hf : ∀ a s', Q a s' → Ensures ok (f a) s' post) : Ensures ok (p >>= f) s post :=
  @Sat.bind _ _ _ _ (fun u => u = s) _ _ _ Q _ (fun _ hu => hu ▸ hp) (fun a u hu => hf a u hu) s rfl

theorem Ensures.get_bind {f : σ → Prog σ ε β} (h : Ensures ok (f s) s post) :
    Ensures ok (get >>= f) s post :=
  h

theorem Ensures.modify_bind {g : σ → σ} {f : Unit → Prog σ ε β} (h : Ensures ok (f ()) (g s) post) :
    Ensures ok (Prog.modify g >>= f) s post :=
  h

theorem Ensures.emit_bind {e : ε} {f : Unit → Prog σ ε β} (he : ok e)
    (h : Ensures ok (f ()) s post) : Ensures ok (Prog.emit e >>= f) s post := by
  refine ⟨?_, h.2⟩
  intro e' he'
  rcases List.mem_cons.mp he' with rfl | hRest
  · exact he
  · exact h.1 e' hRest

theorem Ensures.require_bind {b : Bool} {f : Unit → Prog σ ε β}
    (h : b = true → Ensures ok (f ()) s post) : Ensures ok (Prog.require b >>= f) s post := by
  cases b with
  | true => exact h rfl
  | false => exact ⟨fun _ he => absurd he List.not_mem_nil, fun _ ha => by cases ha⟩

theorem Ensures.ite {c : Prop} [Decidable c] {p q : Prog σ ε β} (hp : c → Ensures ok p s post)
    (hq : ¬c → Ensures ok q s post) : Ensures ok (if c then p else q) s post := by
  split
  · exact hp ‹c›
  · exact hq ‹¬c›

theorem Ensures.orElse {p q : Prog σ ε β} (hp : Ensures ok p s post)
    (hq : (p s).result = none → Ensures ok q (p s).state post) :
    Ensures ok (Prog.orElse p q) s post := by
  unfold Ensures Prog.orElse
  cases hResult : (p s).result with
  | some a => exact ⟨hp.1, fun b hb => hp.2 b (hResult.trans hb)⟩
  | none =>
    refine ⟨?_, (hq hResult).2⟩
    intro e he
    rcases List.mem_append.mp he with he | he
    · exact hp.1 e he
    · exact (hq hResult).1 e he

theorem Ensures.when {c : Bool} {p : Prog σ ε Unit} {post : Unit → σ → Prop}
    (hp : c = true → Ensures ok p s post) (hSkip : c = false → post () s) :
    Ensures ok (Prog.when c p) s post := by
  cases c with
  | true => exact hp rfl
  | false => exact .pure (hSkip rfl)

theorem Ensures.loop {I : Nat → α → σ → Prop} {n : Nat} {a : α} {body : Nat → α → Prog σ ε α}
    (hInit : I 0 a s) (hBody : ∀ i < n, ∀ b s', I i b s' → Ensures ok (body i b) s' (I (i + 1))) :
    Ensures ok (Prog.loop n a body) s (I n) :=
  @Sat.loop _ _ _ (fun u => u = s) _ _ _ _ _ (fun _ hu => hu ▸ hInit)
    (fun i hi b u hu => hBody i hi b u hu) s rfl

end Ensures

/-! ## Triples that hold in every state -/

/-- From any state every event is allowed and a returned value meets the postcondition. -/
def Yields (ok : ε → Prop) (p : Prog σ ε α) (post : α → Prop) : Prop :=
  Sat (fun _ => True) ok p fun a _ => post a

theorem Yields.events {p : Prog σ ε α} {post : α → Prop} (h : Yields ok p post) {s : σ} {e : ε}
    (he : e ∈ (p s).trace) : ok e :=
  (h s trivial).1 e he

theorem Yields.returned {p : Prog σ ε α} {post : α → Prop} (h : Yields ok p post) {s : σ} {a : α}
    (ha : (p s).result = some a) : post a :=
  (h s trivial).2 a ha

theorem Yields.ensures {p : Prog σ ε α} {post : α → Prop} (h : Yields ok p post) (s : σ) :
    Ensures (fun _ => True) p s fun a _ => post a :=
  ⟨fun _ _ => True.intro, fun _ ha => h.returned ha⟩

theorem Yields.mono {p : Prog σ ε α} {post post' : α → Prop} (h : Yields ok p post)
    (hPost : ∀ a, post a → post' a) : Yields ok p post' :=
  Sat.conseq h (fun _ hs => hs) fun a _ => hPost a

theorem Yields.forget {p : Prog σ ε α} {post : α → Prop} (h : Yields ok p post) :
    Yields ok p fun _ => True :=
  h.mono fun _ _ => trivial

theorem Yields.pure {a : α} {post : α → Prop} (h : post a) :
    Yields ok (Pure.pure a : Prog σ ε α) post :=
  Sat.pure fun _ _ => h

theorem Yields.bind {p : Prog σ ε α} {f : α → Prog σ ε β} {Q : α → Prop} {post : β → Prop}
    (hp : Yields ok p Q) (hf : ∀ a, Q a → Yields ok (f a) post) : Yields ok (p >>= f) post :=
  Sat.bind hp fun a s hMid => hf a hMid s trivial

theorem Yields.loop {I : Nat → α → Prop} {n : Nat} {a : α} {body : Nat → α → Prog σ ε α}
    (hInit : I 0 a) (hBody : ∀ i < n, ∀ b, I i b → Yields ok (body i b) (I (i + 1))) :
    Yields ok (loop n a body) (I n) :=
  Sat.loop (I := fun i b _ => I i b) (fun _ _ => hInit)
    fun i hi b s hInv => hBody i hi b hInv s trivial

theorem Yields.each {n : Nat} {a : α} {body : Nat → α → Prog σ ε α}
    (hBody : ∀ i < n, ∀ b, Yields ok (body i b) fun _ => True) :
    Yields ok (Prog.loop n a body) fun _ => True :=
  Yields.loop (I := fun _ _ => True) trivial fun i hi b _ => hBody i hi b

theorem Yields.get : Yields ok (get : Prog σ ε σ) fun _ => True :=
  Sat.get fun _ hs => hs

theorem Yields.modify (f : σ → σ) : Yields ok (modify f : Prog σ ε Unit) fun _ => True :=
  Sat.modify fun _ hs => hs

theorem Yields.emit {e : ε} (he : ok e) : Yields ok (emit e : Prog σ ε Unit) fun _ => True :=
  Sat.emit he fun _ hs => hs

theorem Yields.require (b : Bool) :
    Yields ok (require b : Prog σ ε Unit) fun _ => b = true :=
  Sat.require fun hb _ _ => hb

theorem Yields.ite {c : Prop} [Decidable c] {p q : Prog σ ε α} {post : α → Prop}
    (hp : c → Yields ok p post) (hq : ¬c → Yields ok q post) :
    Yields ok (if c then p else q) post :=
  Sat.ite hp hq

/-! ## Runs that return -/

/-- From `s` the program returns, its events are allowed, and the postcondition holds. -/
def Runs (ok : ε → Prop) (p : Prog σ ε α) (s : σ) (post : α → σ → Prop) : Prop :=
  (∀ e ∈ (p s).trace, ok e) ∧ ∃ a, (p s).result = some a ∧ post a (p s).state

theorem Runs.mono {p : Prog σ ε α} {s : σ} (h : Runs ok p s post)
    (hPost : ∀ a s, post a s → post' a s) : Runs ok p s post' := by
  obtain ⟨hTrace, a, hResult, hMid⟩ := h
  exact ⟨hTrace, a, hResult, hPost a _ hMid⟩

theorem Runs.ensures {p : Prog σ ε α} {s : σ} (h : Runs ok p s post) : Ensures ok p s post := by
  obtain ⟨hTrace, a, hResult, hPost⟩ := h
  refine ⟨hTrace, fun b hb => ?_⟩
  obtain rfl : a = b := Option.some.inj (hResult.symm.trans hb)
  exact hPost

theorem Runs.congr {p q : Prog σ ε α} {s : σ} (hSame : p s = q s) (h : Runs ok q s post) :
    Runs ok p s post := by
  rwa [Runs, hSame]

theorem Runs.pure {a : α} {s : σ} (h : post a s) : Runs ok (Pure.pure a : Prog σ ε α) s post :=
  ⟨by simp, a, rfl, h⟩

theorem Runs.bind {p : Prog σ ε α} {f : α → Prog σ ε β} {s : σ} {Q : α → σ → Prop}
    {post : β → σ → Prop} (hp : Runs ok p s Q) (hf : ∀ a s, Q a s → Runs ok (f a) s post) :
    Runs ok (p >>= f) s post := by
  obtain ⟨hTrace, a, hResult, hMid⟩ := hp
  obtain ⟨hTrace', hPost⟩ := hf a _ hMid
  rw [Runs, bind_returned hResult]
  refine ⟨?_, hPost⟩
  intro e he
  rcases List.mem_append.mp he with he | he
  · exact hTrace e he
  · exact hTrace' e he

theorem Runs.loop {I : Nat → α → σ → Prop} {n : Nat} {a : α} {s : σ} {body : Nat → α → Prog σ ε α}
    (hInit : I 0 a s) (hBody : ∀ i < n, ∀ b s', I i b s' → Runs ok (body i b) s' (I (i + 1))) :
    Runs ok (loop n a body) s (I n) := by
  induction n with
  | zero => exact Runs.pure hInit
  | succ n ih => exact (ih fun i hi => hBody i (by omega)).bind fun b s' => hBody n (by omega) b s'

/-- Every round is run, from a state that meets the invariant. -/
theorem Runs.loop_visits {I : Nat → α → σ → Prop} {n i : Nat} {a : α} {s : σ}
    {body : Nat → α → Prog σ ε α} (hInit : I 0 a s)
    (hBody : ∀ i < n, ∀ b s', I i b s' → Runs ok (body i b) s' (I (i + 1))) (hi : i < n) :
    ∃ b s', I i b s' ∧ ∀ e ∈ (body i b s').trace, e ∈ (Prog.loop n a body s).trace := by
  induction n with
  | zero => exact absurd hi (Nat.not_lt_zero i)
  | succ n ih =>
    obtain ⟨-, b, hResult, hReached⟩ := Runs.loop hInit fun i hi => hBody i (Nat.lt_succ_of_lt hi)
    rw [Prog.loop, bind_trace hResult]
    rcases Nat.lt_succ_iff_lt_or_eq.1 hi with hLess | rfl
    · obtain ⟨c, s', hInvariant, hEvents⟩ := ih (fun i hi => hBody i (Nat.lt_succ_of_lt hi)) hLess
      exact ⟨c, s', hInvariant, fun e he => List.mem_append_left _ (hEvents e he)⟩
    · exact ⟨b, _, hReached, fun e he => List.mem_append_right _ he⟩

theorem Runs.get_bind {f : σ → Prog σ ε β} {s : σ} {post : β → σ → Prop}
    (h : Runs ok (f s) s post) : Runs ok (Prog.get >>= f) s post :=
  h

theorem Runs.modify_bind {g : σ → σ} {f : Unit → Prog σ ε β} {s : σ} {post : β → σ → Prop}
    (h : Runs ok (f ()) (g s) post) : Runs ok (Prog.modify g >>= f) s post :=
  h

theorem Runs.emit_bind {e : ε} {f : Unit → Prog σ ε β} {s : σ} {post : β → σ → Prop} (he : ok e)
    (h : Runs ok (f ()) s post) : Runs ok (Prog.emit e >>= f) s post := by
  refine ⟨?_, h.2⟩
  intro e' he'
  rcases List.mem_cons.mp he' with rfl | hRest
  · exact he
  · exact h.1 e' hRest

/-- Running a first part whose outcome is known. -/
theorem Runs.step {p : Prog σ ε α} {f : α → Prog σ ε β} {s s' : σ} {a : α} {t : List ε}
    {post : β → σ → Prop} (h : p s = ⟨some a, s', t⟩) (hEvents : ∀ e ∈ t, ok e)
    (hf : Runs ok (f a) s' post) : Runs ok (p >>= f) s post :=
  Runs.bind (Q := fun b u => b = a ∧ u = s') ⟨by rwa [h], a, by rw [h], rfl, by rw [h]⟩ <| by
    rintro _ _ ⟨rfl, rfl⟩
    exact hf

theorem Runs.modify {f : σ → σ} {s : σ} {post : Unit → σ → Prop} (h : post () (f s)) :
    Runs ok (modify f : Prog σ ε Unit) s post :=
  ⟨by simp, (), rfl, h⟩

theorem Runs.get {s : σ} {post : σ → σ → Prop} (h : post s s) :
    Runs ok (get : Prog σ ε σ) s post :=
  ⟨by simp, s, rfl, h⟩

theorem Runs.emit {e : ε} {s : σ} {post : Unit → σ → Prop} (he : ok e) (h : post () s) :
    Runs ok (emit e : Prog σ ε Unit) s post :=
  ⟨by simpa using he, (), rfl, h⟩

/-- After allowed events, running `p` from `s` comes to running `q` from `s'`. -/
def LeadsTo (ok : ε → Prop) (p : Prog σ ε α) (s : σ) (q : Prog σ ε α) (s' : σ) : Prop :=
  ∃ t, (∀ e ∈ t, ok e) ∧ p s = ⟨(q s').result, (q s').state, t ++ (q s').trace⟩

namespace LeadsTo

variable {p q r : Prog σ ε α} {s s' s'' : σ}

theorem refl (p : Prog σ ε α) (s : σ) : LeadsTo ok p s p s := ⟨[], by simp, rfl⟩

theorem trans (h : LeadsTo ok p s q s') (h' : LeadsTo ok q s' r s'') : LeadsTo ok p s r s'' := by
  obtain ⟨t, hEvents, hp⟩ := h
  obtain ⟨t', hEvents', hq⟩ := h'
  refine ⟨t ++ t', ?_, by rw [hp, hq, List.append_assoc]⟩
  intro e he
  rcases List.mem_append.mp he with he | he
  · exact hEvents e he
  · exact hEvents' e he

theorem mono {ok' : ε → Prop} (h : LeadsTo ok p s q s') (hOk : ∀ e, ok e → ok' e) :
    LeadsTo ok' p s q s' := by
  obtain ⟨t, hEvents, hp⟩ := h
  exact ⟨t, fun e he => hOk e (hEvents e he), hp⟩

theorem step {p : Prog σ ε β} {f : β → Prog σ ε α} {b : β} {t : List ε}
    (h : p s = ⟨some b, s', t⟩) (hEvents : ∀ e ∈ t, ok e) : LeadsTo ok (p >>= f) s (f b) s' := by
  refine ⟨t, hEvents, ?_⟩
  rw [bind_returned (a := b) (by rw [h]), h]

theorem runs (h : LeadsTo ok p s q s') (hq : Runs ok q s' post) : Runs ok p s post := by
  obtain ⟨t, hEvents, hp⟩ := h
  obtain ⟨hTrace, hPost⟩ := hq
  rw [Runs, hp]
  refine ⟨?_, hPost⟩
  intro e he
  rcases List.mem_append.mp he with he | he
  · exact hEvents e he
  · exact hTrace e he

theorem bind (h : LeadsTo ok p s q s') (f : α → Prog σ ε β) :
    LeadsTo ok (p >>= f) s (q >>= f) s' := by
  obtain ⟨t, hEvents, hp⟩ := h
  refine ⟨t, hEvents, ?_⟩
  cases hResult : (q s').result with
  | none =>
    have hRejected : (p s).result = none := by rw [hp, hResult]
    rw [bind_rejected hRejected, bind_rejected hResult, hp]
  | some a =>
    have hReturned : (p s).result = some a := by rw [hp, hResult]
    rw [bind_returned hReturned, bind_returned hResult, hp, List.append_assoc]

end LeadsTo

theorem Runs.leadsTo {p : Prog σ ε α} {s : σ} {Q : α → σ → Prop} (h : Runs ok p s Q)
    (f : α → Prog σ ε β) : ∃ a s', Q a s' ∧ LeadsTo ok (p >>= f) s (f a) s' := by
  obtain ⟨hTrace, a, hResult, hPost⟩ := h
  exact ⟨a, _, hPost, (p s).trace, hTrace, bind_returned hResult f⟩

/-! ## Runs that follow a relation -/

/-- A relation between the states around a run and its events that runs compose. -/
class Composes (R : List ε → σ → σ → Prop) : Prop where
  nil : ∀ s, R [] s s
  append : ∀ {t t' s s' s''}, R t s s' → R t' s' s'' → R (t ++ t') s s''

/-- Every run that returns is in the relation. -/
def Follows (R : List ε → σ → σ → Prop) (p : Prog σ ε α) : Prop :=
  ∀ s a, (p s).result = some a → R (p s).trace s (p s).state

namespace Follows

variable {R : List ε → σ → σ → Prop} [Composes R]

theorem pure (a : α) : Follows R (Pure.pure a : Prog σ ε α) :=
  fun s _ _ => Composes.nil s

omit [Composes R] in
theorem modify {f : σ → σ} (h : ∀ s, R [] s (f s)) : Follows R (modify f : Prog σ ε Unit) :=
  fun s _ _ => h s

omit [Composes R] in
theorem emit {e : ε} (h : ∀ s, R [e] s s) : Follows R (emit e : Prog σ ε Unit) := fun s _ _ => h s

theorem bind {p : Prog σ ε α} {f : α → Prog σ ε β} (hp : Follows R p)
    (hf : ∀ a, Follows R (f a)) : Follows R (p >>= f) := by
  intro s b hb
  cases hResult : (p s).result with
  | none =>
    rw [bind_rejected hResult] at hb
    cases hb
  | some a =>
    rw [bind_returned hResult] at hb ⊢
    exact Composes.append (hp s a hResult) (hf a _ b hb)

theorem get_bind {f : σ → Prog σ ε β} (h : ∀ s, Follows R (f s)) : Follows R (Prog.get >>= f) :=
  bind (fun s _ _ => Composes.nil s) h

omit [Composes R] in
theorem ite {c : Prop} [Decidable c] {p q : Prog σ ε α} (hp : Follows R p) (hq : Follows R q) :
    Follows R (if c then p else q) := by
  split
  · exact hp
  · exact hq

theorem when {p : Prog σ ε Unit} (c : Bool) (hp : Follows R p) :
    Follows R (Prog.when c p) :=
  ite hp (pure ())

theorem loop {n : Nat} {a : α} {body : Nat → α → Prog σ ε α}
    (h : ∀ i b, Follows R (body i b)) : Follows R (Prog.loop n a body) := by
  induction n with
  | zero => exact pure a
  | succ n ih => exact bind ih (h n)

omit [Composes R] in
theorem ensures {p : Prog σ ε α} (h : Follows R p) (s : σ) :
    Ensures (fun _ => True) p s fun _ s' => ∃ t, R t s s' :=
  ⟨fun _ _ => trivial, fun a ha => ⟨_, h s a ha⟩⟩

end Follows

/-! ## Rejection and certain events -/

def Total (p : Prog σ ε α) : Prop := ∀ s, (p s).result.isSome = true

theorem Total.pure (a : α) : Total (Pure.pure a : Prog σ ε α) := fun _ => rfl

theorem Total.bind {p : Prog σ ε α} {f : α → Prog σ ε β} (hp : Total p) (hf : ∀ a, Total (f a)) :
    Total (p >>= f) := by
  intro s
  obtain ⟨a, ha⟩ := Option.isSome_iff_exists.mp (hp s)
  rw [bind_returned ha]
  exact hf a _

theorem Total.loop {n : Nat} {a : α} {body : Nat → α → Prog σ ε α}
    (h : ∀ i < n, ∀ b, Total (body i b)) : Total (loop n a body) := by
  induction n with
  | zero => exact Total.pure a
  | succ n ih => exact (ih fun i hi => h i (by omega)).bind fun b => h n (by omega) b

theorem Total.get : Total (get : Prog σ ε σ) := fun _ => rfl

theorem Total.require {b : Bool} (h : b = true) : Total (require b : Prog σ ε Unit) := by
  intro s
  rw [require_apply, h]
  rfl

theorem Total.modify (f : σ → σ) : Total (modify f : Prog σ ε Unit) := fun _ => rfl

theorem Total.emit (e : ε) : Total (emit e : Prog σ ε Unit) := fun _ => rfl

theorem Total.ite {c : Prop} [Decidable c] {p q : Prog σ ε α} (hp : Total p) (hq : Total q) :
    Total (if c then p else q) := by
  split
  · exact hp
  · exact hq

def Reaches (e : ε) (p : Prog σ ε α) : Prop := ∀ s, e ∈ (p s).trace

theorem Reaches.bind_left {e : ε} {p : Prog σ ε α} (f : α → Prog σ ε β) (h : Reaches e p) :
    Reaches e (p >>= f) :=
  fun s => mem_bind_trace (h s) f

theorem Reaches.bind_right {e : ε} {p : Prog σ ε α} {f : α → Prog σ ε β} (hp : Total p)
    (h : ∀ a, Reaches e (f a)) : Reaches e (p >>= f) := by
  intro s
  obtain ⟨a, ha⟩ := Option.isSome_iff_exists.mp (hp s)
  rw [bind_returned ha]
  exact List.mem_append_right _ (h a _)

/-- A loop whose body never rejects runs its every iteration. -/
theorem Reaches.loop {e : ε} {n i : Nat} {a : α} {body : Nat → α → Prog σ ε α} (hi : i < n)
    (hTotal : ∀ i b, Total (body i b)) (h : ∀ b, Reaches e (body i b)) :
    Reaches e (loop n a body) := by
  induction n with
  | zero => exact absurd hi (by omega)
  | succ n ih =>
    rcases Nat.lt_succ_iff_lt_or_eq.mp hi with hLess | rfl
    · exact (ih hLess).bind_left _
    · exact Reaches.bind_right (Total.loop fun i _ => hTotal i) h

theorem Reaches.emit (e : ε) : Reaches e (emit e : Prog σ ε Unit) :=
  fun _ => List.mem_singleton_self e

end Prog
end OpenNpux.Lib
