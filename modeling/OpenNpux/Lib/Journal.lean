import OpenNpux.Lib.Prog

/-!
# Programs that account for their runs

A view picks the events that belong to a journal. A program accounts for its runs if every
event is allowed, a run that is rejected has an event that says why, and what a returned
run has written to the journal meets the postcondition, whatever state it began in.
-/

namespace OpenNpux.Lib.Prog

variable {σ ε α β κ : Type} {ok why : ε → Prop} {view : ε → Option κ}

structure Accounts (ok why : ε → Prop) (view : ε → Option κ) (p : Prog σ ε α)
    (post : α → List κ → Prop) : Prop where
  allowed : ∀ s, ∀ e ∈ (p s).trace, ok e
  rejected : ∀ s, (p s).result = none → ∃ e ∈ (p s).trace, why e
  returned : ∀ s a, (p s).result = some a → post a ((p s).trace.filterMap view)

namespace Accounts

theorem pure {a : α} {post : α → List κ → Prop} (h : post a []) :
    Accounts ok why view (Pure.pure a : Prog σ ε α) post where
  allowed _ _ hNever := absurd hNever List.not_mem_nil
  rejected _ hNever := by cases hNever
  returned _ _ hReturned := by
    cases hReturned
    exact h

theorem mono {p : Prog σ ε α} {post post' : α → List κ → Prop} (h : Accounts ok why view p post)
    (hPost : ∀ a log, post a log → post' a log) : Accounts ok why view p post' :=
  ⟨h.allowed, h.rejected, fun s a hReturned => hPost a _ (h.returned s a hReturned)⟩

theorem bind {p : Prog σ ε α} {f : α → Prog σ ε β} {mid : α → List κ → Prop}
    {post : β → List κ → Prop} (hp : Accounts ok why view p mid)
    (hf : ∀ a log, mid a log → Accounts ok why view (f a) fun b more => post b (log ++ more)) :
    Accounts ok why view (p >>= f) post := by
  constructor
  · intro s e he
    cases hResult : (p s).result with
    | none =>
      rw [bind_rejected hResult] at he
      exact hp.allowed s e he
    | some a =>
      rw [bind_trace hResult] at he
      rcases List.mem_append.mp he with he | he
      · exact hp.allowed s e he
      · exact (hf a _ (hp.returned s a hResult)).allowed _ e he
  · intro s hNone
    cases hResult : (p s).result with
    | none =>
      rw [bind_rejected hResult]
      exact hp.rejected s hResult
    | some a =>
      rw [bind_returned hResult] at hNone ⊢
      obtain ⟨e, he, hWhy⟩ := (hf a _ (hp.returned s a hResult)).rejected _ hNone
      exact ⟨e, List.mem_append_right _ he, hWhy⟩
  · intro s b hReturned
    cases hResult : (p s).result with
    | none =>
      rw [bind_rejected hResult] at hReturned
      cases hReturned
    | some a =>
      rw [bind_returned hResult] at hReturned ⊢
      rw [List.filterMap_append]
      exact (hf a _ (hp.returned s a hResult)).returned _ b hReturned

/-- Running a first part whose value and entries are known. -/
theorem bind_known {p : Prog σ ε α} {f : α → Prog σ ε β} {a : α} {log : List κ}
    {post : β → List κ → Prop} (hp : Accounts ok why view p fun b l => b = a ∧ l = log)
    (hf : Accounts ok why view (f a) fun b more => post b (log ++ more)) :
    Accounts ok why view (p >>= f) post :=
  bind hp fun _ _ hKnown => by
    obtain ⟨rfl, rfl⟩ := hKnown
    exact hf

theorem emit_bind {e : ε} {f : Unit → Prog σ ε β} {post : β → List κ → Prop} (he : ok e)
    (hf : Accounts ok why view (f ()) fun b more => post b ((view e).toList ++ more)) :
    Accounts ok why view (Prog.emit e >>= f) post := by
  refine bind_known ⟨?_, ?_, ?_⟩ hf
  · intro _ e' hMem
    rw [List.mem_singleton.mp hMem]
    exact he
  · intro _ hNever
    cases hNever
  · intro _ _ _
    refine ⟨rfl, ?_⟩
    rw [emit_apply, List.filterMap_cons]
    cases view e with
    | none => rfl
    | some entry => rfl

theorem ite {c : Prop} [Decidable c] {p q : Prog σ ε α} {post : α → List κ → Prop}
    (hp : c → Accounts ok why view p post) (hq : ¬c → Accounts ok why view q post) :
    Accounts ok why view (if c then p else q) post := by
  split
  · rename_i h
    exact hp h
  · rename_i h
    exact hq h

theorem loop {I : Nat → α → List κ → Prop} {n : Nat} {a : α} {body : Nat → α → Prog σ ε α}
    (hInit : I 0 a [])
    (hBody : ∀ i < n, ∀ b log, I i b log →
      Accounts ok why view (body i b) fun c more => I (i + 1) c (log ++ more)) :
    Accounts ok why view (loop n a body) (I n) := by
  induction n with
  | zero => exact pure hInit
  | succ n ih =>
    exact bind (ih fun i hi => hBody i (Nat.lt_succ_of_lt hi)) fun b log hLog =>
      hBody n (Nat.lt_succ_self n) b log hLog

end Accounts
end OpenNpux.Lib.Prog
