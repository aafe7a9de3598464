import OpenNpux.Lib.Lockstep

/-!
# Programs that are repeated

A program is run again while the state asks for it, at most a given number of times.
Rounds add up, and once an outcome asks for no further round, a larger number of rounds
has the same outcome.
-/

namespace OpenNpux.Lib.Prog

variable {σ τ ε ε' α β γ : Type}

theorem bind_assoc (p : Prog σ ε α) (f : α → Prog σ ε β) (g : β → Prog σ ε γ) :
    ((p >>= f) >>= g) = p >>= fun a => f a >>= g := by
  funext s
  cases hp : (p s).result with
  | none => rw [bind_rejected hp, bind_rejected (by rw [bind_rejected hp]), bind_rejected hp]
  | some a =>
    have hBoth := bind_returned hp f
    rw [bind_returned hp]
    cases hf : (f a (p s).state).result with
    | none =>
      rw [bind_rejected (by rw [hBoth, hf]), bind_rejected hf, hBoth]
    | some b =>
      rw [bind_returned (by rw [hBoth, hf]), bind_returned hf, hBoth, List.append_assoc]

theorem bind_congr_at {p q : Prog σ ε α} {s : σ} (h : p s = q s) (f : α → Prog σ ε β) :
    (p >>= f) s = (q >>= f) s := by
  rw [bind_apply, bind_apply, h]

theorem bind_pure_unit (p : Prog σ ε Unit) : (p >>= fun _ => pure ()) = p := by
  funext s
  cases hp : (p s).result with
  | none => rw [bind_rejected hp, ← hp]
  | some a => rw [bind_returned hp, pure_apply, List.append_nil, ← hp]

def repeatWhile (more : σ → Bool) (p : Prog σ ε Unit) : Nat → Prog σ ε Unit
  | 0 => pure ()
  | n + 1 => do
    if more (← get) then
      p
      repeatWhile more p n

section Repeat

variable {more : σ → Bool} {p : Prog σ ε Unit} {s : σ}

theorem repeatWhile_succ (h : more s = true) (n : Nat) :
    repeatWhile more p (n + 1) s = (p >>= fun _ => repeatWhile more p n) s := by
  rw [repeatWhile, get_bind, if_pos h]

theorem repeatWhile_stopped (h : more s = false) (n : Nat) :
    repeatWhile more p n s = ⟨some (), s, []⟩ := by
  cases n with
  | zero => rfl
  | succ n =>
    rw [repeatWhile, get_bind, if_neg (by simp [h])]
    rfl

theorem repeatWhile_one (h : more s = true) : repeatWhile more p 1 s = p s := by
  rw [repeatWhile_succ h]
  exact congrFun (bind_pure_unit p) s

theorem repeatWhile_add (m n : Nat) (s : σ) :
    repeatWhile more p (m + n) s = (repeatWhile more p m >>= fun _ => repeatWhile more p n) s := by
  induction m generalizing s with
  | zero =>
    rw [Nat.zero_add]
    rfl
  | succ m ih =>
    cases hMore : more s with
    | false =>
      rw [repeatWhile_stopped hMore, bind_returned (by rw [repeatWhile_stopped hMore]),
        repeatWhile_stopped hMore, repeatWhile_stopped hMore]
      rfl
    | true =>
      rw [Nat.add_right_comm, repeatWhile_succ hMore, funext ih, ← bind_assoc]
      exact bind_congr_at (repeatWhile_succ hMore m).symm _

theorem repeatWhile_snoc {n : Nat} (h : (repeatWhile more p n s).result = some ())
    (hMore : more (repeatWhile more p n s).state = true) :
    Lockstep Eq (repeatWhile more p (n + 1)) s p (repeatWhile more p n s).state := by
  rw [Lockstep, repeatWhile_add, bind_returned h, repeatWhile_one hMore]
  exact ⟨rfl, rfl⟩

/-- No further round is made: the program was rejected or the state does not ask for one. -/
def Settled (more : σ → Bool) (o : Outcome σ ε Unit) : Prop :=
  o.result = none ∨ more o.state = false

theorem repeatWhile_settled {m n : Nat} (h : Settled more (repeatWhile more p m s)) (hmn : m ≤ n) :
    Lockstep Eq (repeatWhile more p n) s (repeatWhile more p m) s := by
  obtain ⟨k, rfl⟩ := Nat.exists_eq_add_of_le hmn
  rw [Lockstep, repeatWhile_add]
  cases hResult : (repeatWhile more p m s).result with
  | none =>
    rw [bind_rejected hResult]
    exact ⟨rfl, rfl⟩
  | some a =>
    have hStop : more (repeatWhile more p m s).state = false := by
      rcases h with hNone | hStop
      · rw [hResult] at hNone
        cases hNone
      · exact hStop
    rw [bind_returned hResult, repeatWhile_stopped hStop]
    exact ⟨rfl, rfl⟩

theorem Lockstep.repeatWhile {R : σ → τ → Prop} {more' : τ → Bool} {q : Prog τ ε' Unit} {t : τ}
    (hMore : ∀ s t, R s t → more s = more' t) (hBody : ∀ s t, R s t → Lockstep R p s q t) (n : Nat)
    (h : R s t) : Lockstep R (Prog.repeatWhile more p n) s (Prog.repeatWhile more' q n) t := by
  induction n generalizing s t with
  | zero => exact .pure () h
  | succ n ih =>
    refine .get_bind (.ite (by rw [hMore s t h]) ?_ (.pure () h))
    exact .bind (hBody s t h) fun _ _ _ hNext => ih hNext

/-- A first part that takes `k` rounds, and a rest that takes at most `limit` more. -/
theorem Lockstep.bind_repeatWhile {R : τ → σ → Prop} {q rest : Prog τ ε' Unit} {t : τ}
    {k limit : Nat} (h : Lockstep R q t (Prog.repeatWhile more p k) s)
    (hRest : ∀ s', (q t).result = some () → R (q t).state s' →
      ∃ k' ≤ limit, Lockstep R rest (q t).state (Prog.repeatWhile more p k') s') :
    ∃ k', k ≤ k' ∧ k' ≤ k + limit ∧
      Lockstep R (q >>= fun _ => rest) t (Prog.repeatWhile more p k') s := by
  cases hResult : (q t).result with
  | none =>
    refine ⟨k, Nat.le_refl k, Nat.le_add_right k limit, ?_⟩
    rw [Lockstep, bind_rejected hResult]
    exact ⟨hResult.symm.trans h.1, h.2⟩
  | some a =>
    obtain ⟨k', hLimit, hMore⟩ := hRest _ hResult h.2
    refine ⟨k + k', Nat.le_add_right k k', Nat.add_le_add_left hLimit k, ?_⟩
    rw [Lockstep, repeatWhile_add, bind_returned hResult, bind_returned (h.1.symm.trans hResult)]
    exact hMore

theorem Ensures.repeatWhile {ok : ε → Prop} {I : σ → Prop}
    (hBody : ∀ s, I s → more s = true → Ensures ok p s fun _ => I) (n : Nat) (h : I s) :
    Ensures ok (Prog.repeatWhile more p n) s fun _ => I := by
  induction n generalizing s with
  | zero => exact .pure h
  | succ n ih =>
    refine .get_bind (.ite (fun hMore => ?_) fun _ => .pure h)
    exact .bind (hBody s h hMore) fun _ _ hNext => ih hNext

end Repeat

end OpenNpux.Lib.Prog
