import Mathlib.Data.List.Basic
import Mathlib.Logic.Function.Basic

/-!
# Arrays filled by counted loops

A buffer is an array together with the places written to it, in order. Nested counted
loops are one loop over the row-major index. A loop that works on a single place is a loop
on its value, and a loop whose rounds settle different places fills them.
-/

namespace OpenNpux.Lib

universe u v

variable {σ : Type u} {α : Type v}

/-- The loop `for (i = 0; i < n; i++)`. -/
def forLoop : Nat → (Nat → σ → σ) → σ → σ
  | 0, _, s => s
  | n + 1, body, s => body n (forLoop n body s)

theorem forLoop_congr {n : Nat} {body body' : Nat → σ → σ}
    (h : ∀ i < n, ∀ s, body i s = body' i s) : forLoop n body = forLoop n body' := by
  funext s
  induction n with
  | zero => rfl
  | succ n ih =>
    rw [forLoop, forLoop, ih fun i hi => h i (Nat.lt_succ_of_lt hi), h n (Nat.lt_succ_self n)]

theorem forLoop_add (n k : Nat) (body : Nat → σ → σ) (s : σ) :
    forLoop (n + k) body s = forLoop k (fun i => body (n + i)) (forLoop n body s) := by
  induction k with
  | zero => rfl
  | succ k ih => rw [← Nat.add_assoc, forLoop, ih, forLoop]

theorem rowMajor_div {i j k : Nat} (h : j < k) : (i * k + j) / k = i := by
  rw [Nat.mul_comm, Nat.mul_add_div (by omega), Nat.div_eq_of_lt h, Nat.add_zero]

theorem rowMajor_mod {i j k : Nat} (h : j < k) : (i * k + j) % k = j := by
  rw [Nat.mul_comm, Nat.mul_add_mod, Nat.mod_eq_of_lt h]

theorem rowMajor_lt {i j n k : Nat} (hi : i < n) (hj : j < k) : i * k + j < n * k := by
  have hRow : (i + 1) * k ≤ n * k := Nat.mul_le_mul_right k hi
  rw [Nat.succ_mul] at hRow
  omega

theorem forLoop_nested (n k : Nat) (body : Nat → Nat → σ → σ) :
    forLoop n (fun i => forLoop k (body i)) = forLoop (n * k) fun c => body (c / k) (c % k) := by
  funext s
  induction n with
  | zero => rw [Nat.zero_mul, forLoop, forLoop]
  | succ n ih =>
    have hRow : forLoop k (fun j => body ((n * k + j) / k) ((n * k + j) % k)) =
        forLoop k (body n) := by
      refine forLoop_congr fun j hj s => ?_
      rw [rowMajor_div hj, rowMajor_mod hj]
    rw [Nat.succ_mul, forLoop_add (n * k) k, hRow, ← ih, forLoop]

structure Buffer (α : Type v) where
  cells : Nat → α
  writes : List Nat := []

namespace Buffer

def store (b : Buffer α) (c : Nat) (v : α) : Buffer α where
  cells := Function.update b.cells c v
  writes := b.writes ++ [c]

theorem store_cells (b : Buffer α) (c : Nat) (v : α) :
    (b.store c v).cells = Function.update b.cells c v := rfl

/-- The program changes one place, whose value it maps by `g`. -/
def ActsOn (c : Nat) (f : Buffer α → Buffer α) (g : α → α) : Prop :=
  ∀ b, (f b).cells = Function.update b.cells c (g (b.cells c))

theorem ActsOn.store (c : Nat) (g : α → α) : ActsOn c (fun b => b.store c (g (b.cells c))) g :=
  fun _ => rfl

theorem ActsOn.keep (c : Nat) : ActsOn c (fun b : Buffer α => b) id := fun b =>
  (Function.update_eq_self c b.cells).symm

theorem ActsOn.comp {c : Nat} {f f' : Buffer α → Buffer α} {g g' : α → α} (h' : ActsOn c f' g')
    (h : ActsOn c f g) : ActsOn c (fun b => f' (f b)) fun v => g' (g v) := by
  intro b
  rw [h', h, Function.update_self, Function.update_idem]

theorem ActsOn.loop {c n : Nat} {f : Nat → Buffer α → Buffer α} {g : Nat → α → α}
    (h : ∀ i, ActsOn c (f i) (g i)) : ActsOn c (forLoop n f) (forLoop n g) := by
  induction n with
  | zero => exact .keep c
  | succ n ih => exact (h n).comp ih

theorem ActsOn.after_store {c : Nat} {f : Buffer α → Buffer α} {g : α → α} (h : ActsOn c f g)
    (b : Buffer α) (v : α) : (f (b.store c v)).cells = Function.update b.cells c (g v) := by
  rw [h, store_cells, Function.update_self, Function.update_idem]

variable {n : Nat} {body : Nat → Buffer α → Buffer α} {place : Nat → Nat} {value : Nat → α}

theorem forLoop_cells
    (hBody : ∀ i < n, ∀ b, (body i b).cells = Function.update b.cells (place i) (value i))
    (hPlace : ∀ i < n, ∀ j < n, place i = place j → i = j) (b : Buffer α) {i : Nat} (hi : i < n) :
    (forLoop n body b).cells (place i) = value i := by
  induction n with
  | zero => exact absurd hi (Nat.not_lt_zero i)
  | succ n ih =>
    rw [forLoop, hBody n (Nat.lt_succ_self n)]
    rcases Nat.lt_succ_iff_lt_or_eq.mp hi with hLess | rfl
    · have hOther : place i ≠ place n := fun hSame =>
        absurd (hPlace i hi n (Nat.lt_succ_self n) hSame) (Nat.ne_of_lt hLess)
      rw [Function.update_of_ne hOther]
      exact ih (fun i hi => hBody i (Nat.lt_succ_of_lt hi))
        (fun i hi j hj => hPlace i (Nat.lt_succ_of_lt hi) j (Nat.lt_succ_of_lt hj)) hLess
    · exact Function.update_self _ _ _

theorem forLoop_cells_self
    (hBody : ∀ i < n, ∀ b, (body i b).cells = Function.update b.cells i (value i)) (b : Buffer α)
    {i : Nat} (hi : i < n) : (forLoop n body b).cells i = value i :=
  @forLoop_cells α n body (fun i => i) value hBody (fun _ _ _ _ h => h) b i hi

theorem forLoop_writes (hBody : ∀ i b, (body i b).writes = b.writes ++ [place i]) (b : Buffer α) :
    (forLoop n body b).writes = b.writes ++ (List.range n).map place := by
  induction n with
  | zero => exact (List.append_nil _).symm
  | succ n ih =>
    rw [forLoop, hBody, ih, List.range_succ, List.map_append, List.append_assoc]
    rfl

end Buffer
end OpenNpux.Lib
