import Mathlib.Data.List.Induction
import Mathlib.Data.List.TakeWhile

/-!
# A write-back cache of pages

Cells lie in pages. A page is filled from memory as a whole when it is first used and
written back as a whole when it is dirty. What a client of the cache sees is the cached
cell of a valid page and the memory cell otherwise; while only the client writes, that
view is memory as if every access had gone to it. Under foreign writes to memory a
write-back restores the cells of a dirty page to what they were when it was filled.
-/

namespace OpenNpux.Lib

universe u v w

variable {α : Type u} {β : Type v} {ι : Type w}

@[ext]
structure WriteBack (α : Type u) (β : Type v) (ι : Type w) where
  memory : α → β
  cache : α → β
  valid : ι → Bool
  dirty : ι → Bool

/-- Replaces the cells that have a new value. -/
def overwrite (m : α → β) (cells : α → Option β) : α → β := fun a => (cells a).getD (m a)

namespace WriteBack

variable (page : α → ι) (s : WriteBack α β ι)

def view : α → β := fun a => if s.valid (page a) then s.cache a else s.memory a

def flush : WriteBack α β ι :=
  { s with
    memory := fun a => if s.dirty (page a) then s.cache a else s.memory a
    dirty := fun _ => false }

def invalidate : WriteBack α β ι := { s with valid := fun _ => false, dirty := fun _ => false }

/-- A write to memory that bypasses the cache. -/
def foreign (cells : α → Option β) : WriteBack α β ι :=
  { s with memory := overwrite s.memory cells }

/-! ## The client's view -/

/-- Only a valid page is dirty, and a page that is not dirty agrees with memory. -/
structure Coherent : Prop where
  valid_of_dirty : ∀ i, s.dirty i = true → s.valid i = true
  clean : ∀ a, s.valid (page a) = true → s.dirty (page a) = false → s.cache a = s.memory a

/-- A write lands in one page. -/
def Within (page : α → ι) (i : ι) (cells : α → Option β) : Prop :=
  ∀ a, (cells a).isSome = true → page a = i

variable {page s} {i : ι} {cells : α → Option β}

theorem memory_flush (h : s.Coherent page) : (s.flush page).memory = s.view page := by
  funext a
  cases hDirty : s.dirty (page a) with
  | true => simp [flush, view, hDirty, h.valid_of_dirty _ hDirty]
  | false =>
    cases hValid : s.valid (page a) with
    | true => simp [flush, view, hDirty, hValid, h.clean a hValid hDirty]
    | false => simp [flush, view, hDirty, hValid]

theorem view_invalidate : s.invalidate.view page = s.memory := by
  funext a
  simp [invalidate, view]

theorem coherent_invalidate : s.invalidate.Coherent page := by
  constructor
  · intro _ hDirty
    cases hDirty
  · intro _ hValid
    cases hValid

theorem Within.outside (h : Within page i cells) {a : α} (ha : page a ≠ i) : cells a = none := by
  cases hCell : cells a with
  | none => rfl
  | some b => exact absurd (h a (by simp [hCell])) ha

variable [DecidableEq ι]

variable (page s i) in
def fill : WriteBack α β ι :=
  if s.valid i then s
  else
    { s with
      cache := fun a => if page a = i then s.memory a else s.cache a
      valid := fun j => if j = i then true else s.valid j }

variable (s i cells) in
/-- A write into a page of the cache. -/
def put : WriteBack α β ι :=
  { s with
    cache := overwrite s.cache cells
    dirty := fun j => if j = i then true else s.dirty j }

theorem fill_valid : (s.fill page i).valid i = true := by
  unfold fill
  split
  · assumption
  · simp

theorem fill_memory : (s.fill page i).memory = s.memory := by
  unfold fill
  split <;> rfl

theorem fill_dirty : (s.fill page i).dirty = s.dirty := by
  unfold fill
  split <;> rfl

theorem view_fill : (s.fill page i).view page = s.view page := by
  funext a
  unfold fill
  split
  · rfl
  · rename_i hInvalid
    by_cases hPage : page a = i <;> simp [view, hPage, hInvalid]

theorem Coherent.fill (h : s.Coherent page) : (s.fill page i).Coherent page := by
  unfold WriteBack.fill
  split
  · exact h
  · rename_i hInvalid
    constructor
    · intro j hDirty
      simp [h.valid_of_dirty j hDirty]
    · intro a hValid hClean
      by_cases hPage : page a = i
      · simp [hPage]
      · simp only [hPage, if_false] at hValid ⊢
        exact h.clean a hValid hClean

theorem view_put (hValid : s.valid i = true) (hCells : Within page i cells) :
    (s.put i cells).view page = overwrite (s.view page) cells := by
  funext a
  by_cases hPage : page a = i
  · simp [view, put, overwrite, hPage, hValid]
  · simp [view, put, overwrite, hCells.outside hPage]

theorem Coherent.put (h : s.Coherent page) (hValid : s.valid i = true)
    (hCells : Within page i cells) : (s.put i cells).Coherent page := by
  constructor
  · intro j hDirty
    by_cases hPage : j = i
    · exact hPage ▸ hValid
    · exact h.valid_of_dirty j (by simpa [WriteBack.put, hPage] using hDirty)
  · intro a hPageValid hClean
    have hPage : page a ≠ i := fun hPage => by simp [WriteBack.put, hPage] at hClean
    simp only [WriteBack.put, hPage, if_false] at hClean
    simp only [WriteBack.put, overwrite, hCells.outside hPage]
    exact h.clean a hPageValid hClean

/-! ## Histories with foreign writes -/

inductive Access (α : Type u) (β : Type v) (ι : Type w)
  | read (i : ι)
  | write (i : ι) (cells : α → Option β)
  | foreign (cells : α → Option β)

namespace Access

/-- The access uses the page. -/
def touches (i : ι) : Access α β ι → Bool
  | read j | write j _ => decide (j = i)
  | foreign _ => false

def dirties (i : ι) : Access α β ι → Bool
  | write j _ => decide (j = i)
  | read _ | foreign _ => false

/-- The access writes the cell through the cache. -/
def covers (a : α) : Access α β ι → Bool
  | write _ cells => (cells a).isSome
  | read _ | foreign _ => false

/-- What the access does to memory. -/
def onMemory (m : α → β) : Access α β ι → α → β
  | foreign cells => overwrite m cells
  | read _ | write _ _ => m

end Access

variable (page) in
def step (s : WriteBack α β ι) : Access α β ι → WriteBack α β ι
  | .read i => s.fill page i
  | .write i cells => (s.fill page i).put i cells
  | .foreign cells => s.foreign cells

/-- Memory after the foreign writes of a history. -/
def foreignMemory (m : α → β) (ops : List (Access α β ι)) : α → β := ops.foldl Access.onMemory m

/-- The accesses before a page is filled. -/
def beforeFill (i : ι) (ops : List (Access α β ι)) : List (Access α β ι) :=
  ops.takeWhile fun op => !op.touches i

/-- What a history of accesses leaves, starting from an invalidated cache. -/
structure Traces (page : α → ι) (m : α → β) (ops : List (Access α β ι)) (s : WriteBack α β ι) :
    Prop where
  memory : s.memory = foreignMemory m ops
  valid : ∀ i, s.valid i = ops.any (Access.touches i)
  dirty : ∀ i, s.dirty i = ops.any (Access.dirties i)
  cache : ∀ a, ops.any (Access.touches (page a)) = true → ops.any (Access.covers a) = false →
    s.cache a = foreignMemory m (beforeFill (page a) ops) a

omit [DecidableEq ι] in
theorem foreignMemory_append (m : α → β) (ops : List (Access α β ι)) (op : Access α β ι) :
    foreignMemory m (ops ++ [op]) = op.onMemory (foreignMemory m ops) := by
  simp [foreignMemory]

theorem beforeFill_of_touched {ops : List (Access α β ι)} (h : ops.any (Access.touches i) = true)
    (op : Access α β ι) : beforeFill i (ops ++ [op]) = beforeFill i ops := by
  unfold beforeFill
  rw [List.takeWhile_append, if_neg]
  intro hAll
  obtain ⟨op', hMem, hTouches⟩ := List.any_eq_true.mp h
  have hSelf : ops.takeWhile (fun op => !op.touches i) = ops := by
    exact (List.takeWhile_prefix _).eq_of_length hAll
  have hNot := List.takeWhile_eq_self_iff.mp hSelf op' hMem
  simp [hTouches] at hNot

theorem beforeFill_of_untouched {ops : List (Access α β ι)} (h : ops.any (Access.touches i) = false)
    {op : Access α β ι} (hOp : op.touches i = true) : beforeFill i (ops ++ [op]) = ops := by
  have hAll : ∀ op' ∈ ops, (!op'.touches i) = true := by
    intro op' hMem
    have hNot := List.any_eq_false.mp h op' hMem
    simpa using hNot
  rw [beforeFill, List.takeWhile_append_of_pos hAll]
  simp [hOp]

variable {m : α → β} {ops : List (Access α β ι)}

theorem traces_invalidate : Traces page s.memory [] s.invalidate :=
  ⟨rfl, fun _ => rfl, fun _ => rfl, fun _ h => by cases h⟩

theorem fill_cache_of_valid {a : α} (hValid : s.valid (page a) = true) :
    (s.fill page i).cache a = s.cache a := by
  unfold fill
  split
  · rfl
  · rename_i hInvalid
    have hPage : page a ≠ i := fun hPage => hInvalid (hPage ▸ hValid)
    simp [hPage]

theorem fill_cache_of_invalid {a : α} (hInvalid : s.valid (page a) = false) :
    (s.fill page (page a)).cache a = s.memory a := by
  simp [fill, hInvalid]

theorem fill_valid_eq (j : ι) : (s.fill page i).valid j = (s.valid j || decide (i = j)) := by
  unfold fill
  split
  · rename_i hValid
    by_cases hPage : i = j
    · subst hPage
      simp [hValid]
    · simp [hPage]
  · by_cases hPage : j = i
    · simp [hPage]
    · simp [hPage, Ne.symm hPage]

/-- The cache after one more access, at a cell that the access does not cover. -/
theorem step_cache_of_valid {op : Access α β ι} {a : α} (hValid : s.valid (page a) = true)
    (hCovers : op.covers a = false) : (s.step page op).cache a = s.cache a := by
  cases op with
  | read i => exact fill_cache_of_valid hValid
  | write i cells =>
    have hNone : cells a = none := by simpa [Access.covers] using hCovers
    simp only [step, put, overwrite, hNone]
    exact fill_cache_of_valid hValid
  | foreign cells => rfl

theorem step_cache_of_invalid {op : Access α β ι} {a : α} (hInvalid : s.valid (page a) = false)
    (hTouches : op.touches (page a) = true) (hCovers : op.covers a = false) :
    (s.step page op).cache a = s.memory a := by
  cases op with
  | read i =>
    obtain rfl : i = page a := by simpa [Access.touches] using hTouches
    exact fill_cache_of_invalid hInvalid
  | write i cells =>
    obtain rfl : i = page a := by simpa [Access.touches] using hTouches
    have hNone : cells a = none := by simpa [Access.covers] using hCovers
    simp only [step, put, overwrite, hNone]
    exact fill_cache_of_invalid hInvalid
  | foreign cells => cases hTouches

theorem Traces.step (h : Traces page m ops s) (op : Access α β ι) :
    Traces page m (ops ++ [op]) (s.step page op) where
  memory := by
    rw [foreignMemory_append, ← h.memory]
    cases op with
    | read i => exact fill_memory
    | write i cells => exact fill_memory
    | foreign cells => rfl
  valid j := by
    rw [List.any_append, ← h.valid]
    cases op with
    | read i => simp [WriteBack.step, fill_valid_eq, Access.touches]
    | write i cells => simp [WriteBack.step, put, fill_valid_eq, Access.touches]
    | foreign cells => simp [WriteBack.step, foreign, Access.touches]
  dirty j := by
    rw [List.any_append, ← h.dirty]
    cases op with
    | read i => simp [WriteBack.step, fill_dirty, Access.dirties]
    | write i cells =>
      by_cases hPage : j = i
      · simp [WriteBack.step, put, Access.dirties, hPage]
      · simp [WriteBack.step, put, fill_dirty, Access.dirties, hPage, Ne.symm hPage]
    | foreign cells => simp [WriteBack.step, foreign, Access.dirties]
  cache a hTouched hCovered := by
    simp only [List.any_append, List.any_cons, List.any_nil, Bool.or_false, Bool.or_eq_true,
      Bool.or_eq_false_iff] at hTouched hCovered
    cases hBefore : ops.any (Access.touches (page a)) with
    | true =>
      have hValid : s.valid (page a) = true := (h.valid _).trans hBefore
      rw [step_cache_of_valid hValid hCovered.2, beforeFill_of_touched hBefore]
      exact h.cache a hBefore hCovered.1
    | false =>
      -- the access fills the page: its cells are those of memory now
      have hInvalid : s.valid (page a) = false := (h.valid _).trans hBefore
      have hNow := hTouched.resolve_left (by simp [hBefore])
      rw [step_cache_of_invalid hInvalid hNow hCovered.2, beforeFill_of_untouched hBefore hNow,
        h.memory]

theorem traces_run (s : WriteBack α β ι) (ops : List (Access α β ι)) :
    Traces page s.memory ops (ops.foldl (WriteBack.step page) s.invalidate) := by
  induction ops using List.reverseRecOn with
  | nil => exact traces_invalidate
  | append_singleton ops op ih =>
    rw [List.foldl_append]
    exact ih.step op

/-- A flush changes an uncovered cell exactly if a foreign write has changed it since the
fill of a page that is dirty. -/
theorem Traces.flush_uncovered_iff (h : Traces page m ops s) {a : α}
    (hCovered : ops.any (Access.covers a) = false) :
    (s.flush page).memory a = s.memory a ↔
      (ops.any (Access.dirties (page a)) = true →
        foreignMemory m (beforeFill (page a) ops) a = foreignMemory m ops a) := by
  cases hDirty : ops.any (Access.dirties (page a)) with
  | false =>
    have hClean : s.dirty (page a) = false := (h.dirty _).trans hDirty
    simp [flush, hClean]
  | true =>
    have hFlag : s.dirty (page a) = true := (h.dirty _).trans hDirty
    have hTouched : ops.any (Access.touches (page a)) = true := by
      obtain ⟨op, hMem, hOp⟩ := List.any_eq_true.mp hDirty
      refine List.any_eq_true.mpr ⟨op, hMem, ?_⟩
      cases op with
      | write j cells => exact hOp
      | read j => cases hOp
      | foreign cells => cases hOp
    simp only [flush, hFlag, if_true, h.cache a hTouched hCovered, h.memory, forall_const]

end WriteBack
end OpenNpux.Lib
