import OpenNpux.Firmware.Staging

/-!
# Blocks of the staging arena

The allocator only moves its cursor forward, so over any sequence of calls the blocks it
hands out follow one another. The cursor stays within three MiB and a power of two below
`2 ^ 32` is at most `2 ^ 31`, so rounding the cursor up does not wrap.
-/

namespace OpenNpux.Firmware

open Lib Bridge Hybrid

structure StagingCall where
  size : UInt32
  alignment : UInt32

/-- The allocator after some calls, with the blocks it has handed out. -/
structure StagingAllocator where
  cursor : Nat := 0
  blocks : List (Nat × Nat) := []

namespace StagingAllocator

def answer (s : StagingAllocator) (c : StagingCall) : Nat × Nat :=
  allocateStaging s.cursor c.size.toNat c.alignment.toNat

def call (s : StagingAllocator) (c : StagingCall) : StagingAllocator :=
  { cursor := (s.answer c).2
    blocks := if (s.answer c).1 = 0 then s.blocks
      else s.blocks ++ [((s.answer c).1, c.size.toNat)] }

end StagingAllocator

def stagingBase : Nat := extmemBase + operatorStagingOffset

def BlocksApart (b b' : Nat × Nat) : Prop := b.1 + b.2 ≤ b'.1 ∨ b'.1 + b'.2 ≤ b.1

/-- What the allocator says to a call: a block from the cursor on, or why there is none. -/
inductive Answers (cursor : Nat) (c : StagingCall) : Nat × Nat → Prop
  | block {offset : Nat} (hPower : c.alignment.toNat.isPowerOfTwo) (hFrom : cursor ≤ offset)
      (hAligned : c.alignment.toNat ∣ offset)
      (hFits : offset + c.size.toNat ≤ operatorStagingSize) :
      Answers cursor c (stagingBase + offset, offset + c.size.toNat)
  | none (hReason : c.size.toNat = 0 ∨ ¬c.alignment.toNat.isPowerOfTwo ∨
      ∀ offset, cursor ≤ offset → c.alignment.toNat ∣ offset →
        operatorStagingSize < offset + c.size.toNat) :
      Answers cursor c (0, cursor)

theorem alignment_dvd_base {alignment : Nat} (hLe : alignment ≤ 2 ^ 20)
    (hPower : alignment.isPowerOfTwo) : alignment ∣ stagingBase := by
  obtain ⟨k, rfl⟩ := hPower
  have hk : k ≤ 20 := (Nat.pow_le_pow_iff_right (by decide)).1 hLe
  exact (Nat.pow_dvd_pow 2 hk).trans (by decide)

theorem alignment_le {alignment : Nat} (hLt : alignment < 2 ^ 32)
    (hPower : alignment.isPowerOfTwo) : alignment ≤ 2 ^ 31 := by
  obtain ⟨k, rfl⟩ := hPower
  exact Nat.pow_le_pow_right (by decide)
    (Nat.le_of_lt_succ ((Nat.pow_lt_pow_iff_right (by decide)).1 hLt))

theorem roundUp_least {cursor alignment offset : Nat} (hPos : 0 < alignment)
    (hFrom : cursor ≤ offset) (hAligned : alignment ∣ offset) :
    (cursor + alignment - 1) / alignment * alignment ≤ offset := by
  obtain ⟨k, rfl⟩ := hAligned
  rw [Nat.mul_comm alignment k]
  apply Nat.mul_le_mul_right
  rw [Nat.div_le_iff_le_mul_add_pred hPos]
  omega

theorem le_roundUp {cursor alignment : Nat} (hPos : 0 < alignment) :
    cursor ≤ (cursor + alignment - 1) / alignment * alignment := by
  have := Nat.div_add_mod (cursor + alignment - 1) alignment
  have := Nat.mod_lt (cursor + alignment - 1) hPos
  rw [Nat.mul_comm]
  omega

theorem allocateStaging_answers {cursor : Nat} (hCursor : cursor ≤ operatorStagingSize)
    (c : StagingCall) : Answers cursor c
    (allocateStaging cursor c.size.toNat c.alignment.toNat) := by
  by_cases hNone : (allocateStaging cursor c.size.toNat c.alignment.toNat).1 = 0
  · have hSize : operatorStagingSize < 2 ^ 31 := by decide
    unfold allocateStaging at hNone ⊢
    dsimp only at hNone ⊢
    split
    · rename_i hBad
      apply Answers.none
      rcases hBad with hZero | hZero | hBits
      · exact .inl hZero
      · exact .inr (.inl fun hPower => by
          rw [hZero] at hPower
          exact Nat.not_isPowerOfTwo_zero hPower)
      · exact .inr (.inl fun hPower => hBits
          ((Nat.and_sub_one_eq_zero_iff_isPowerOfTwo
            (Nat.pos_of_isPowerOfTwo hPower).ne').2 hPower))
    · rename_i hGood
      rw [if_neg hGood] at hNone
      push Not at hGood
      obtain ⟨hSizePos, hNonzero, hBits⟩ := hGood
      have hPower := (Nat.and_sub_one_eq_zero_iff_isPowerOfTwo hNonzero).1 hBits
      have hBound := alignment_le c.alignment.toNat_lt hPower
      rw [Nat.mod_eq_of_lt (by omega : cursor + c.alignment.toNat - 1 < 2 ^ 32)] at hNone ⊢
      split
      · rename_i hFull
        refine .none (.inr (.inr fun offset hFrom hAligned => ?_))
        have := roundUp_least (Nat.pos_of_ne_zero hNonzero) hFrom hAligned
        have := @le_roundUp cursor _ (Nat.pos_of_ne_zero hNonzero)
        omega
      · rename_i hRoom
        rw [if_neg hRoom] at hNone
        unfold extmemBase at hNone
        dsimp only at hNone
        omega
  · obtain ⟨offset, hBlock, hPower, hFrom, hAligned, hFits⟩ := allocateStaging_block hNone
    rw [hBlock]
    exact .block hPower hFrom hAligned hFits

/-- The cursor is past every block, and the blocks are where they should be. -/
structure StagingAllocator.Sound (s : StagingAllocator) : Prop where
  cursor : s.cursor ≤ operatorStagingSize
  inside : ∀ b ∈ s.blocks, stagingBase ≤ b.1 ∧ b.1 + b.2 ≤ stagingBase + s.cursor
  apart : s.blocks.Pairwise BlocksApart

theorem StagingAllocator.Sound.call {s : StagingAllocator} (h : s.Sound) (c : StagingCall) :
    (s.call c).Sound := by
  have hAnswer : Answers s.cursor c (s.answer c) := allocateStaging_answers h.cursor c
  unfold StagingAllocator.call
  generalize s.answer c = answer at hAnswer ⊢
  cases hAnswer with
  | none => exact ⟨h.cursor, h.inside, h.apart⟩
  | @block offset _ hFrom hAligned hFits =>
    have hNonzero : stagingBase + offset ≠ 0 := by
      unfold stagingBase extmemBase
      omega
    dsimp only
    rw [if_neg hNonzero]
    refine ⟨hFits, ?_, ?_⟩
    · intro b hb
      rcases List.mem_append.1 hb with hOld | hNew
      · have := h.inside b hOld
        dsimp only
        omega
      · rw [List.mem_singleton.1 hNew]
        dsimp only
        omega
    · refine List.pairwise_append.2 ⟨h.apart, List.pairwise_singleton _ _, ?_⟩
      intro b hb b' hNew
      have := h.inside b hb
      rw [List.mem_singleton.1 hNew]
      exact .inl (by dsimp only; omega)

theorem sound_foldl (calls : List StagingCall) : (calls.foldl StagingAllocator.call {}).Sound := by
  refine List.foldlRecOn (motive := StagingAllocator.Sound) calls _ ?_ ?_
  · exact ⟨Nat.zero_le _, by simp, List.Pairwise.nil⟩
  · intro s h c _
    exact h.call c

/-- After any calls the blocks are apart from each other and from the descriptor, and the
next call gives an aligned block of the arena or says why there is none. -/
theorem staging_blocks (calls : List StagingCall) :
    (calls.foldl StagingAllocator.call {}).blocks.Pairwise BlocksApart ∧
      (∀ b ∈ (calls.foldl StagingAllocator.call {}).blocks,
        stagingBase ≤ b.1 ∧ b.1 + b.2 ≤ stagingBase + 3 * 2 ^ 20 ∧
          BlocksApart b (extmemBase + operatorDescriptorOffset, descriptorBytes)) ∧
      ∀ c s, s = calls.foldl StagingAllocator.call {} →
        ((s.answer c).1 ≠ 0 →
          stagingBase ≤ (s.answer c).1 ∧
            (s.answer c).1 + c.size.toNat ≤ stagingBase + 3 * 2 ^ 20 ∧
            c.alignment.toNat ∣ (s.answer c).1 - stagingBase ∧
            (c.alignment.toNat ≤ 2 ^ 20 → c.alignment.toNat ∣ (s.answer c).1)) ∧
        ((s.answer c).1 = 0 →
          (s.call c).cursor = s.cursor ∧
            (c.size = 0 ∨ ¬c.alignment.toNat.isPowerOfTwo ∨
              ∀ offset, s.cursor ≤ offset → c.alignment.toNat ∣ offset →
                3 * 2 ^ 20 < offset + c.size.toNat)) := by
  have hSound := sound_foldl calls
  refine ⟨hSound.apart, fun b hb => ?_, ?_⟩
  · have hInside := hSound.inside b hb
    have hCursor := hSound.cursor
    unfold operatorStagingSize at hCursor
    refine ⟨hInside.1, by omega, .inr ?_⟩
    unfold stagingBase operatorStagingOffset at hInside
    unfold operatorDescriptorOffset descriptorBytes
    dsimp only
    omega
  · intro c s hs
    rw [← hs] at hSound
    have hAnswer : Answers s.cursor c (s.answer c) := allocateStaging_answers hSound.cursor c
    have hCursor : (s.call c).cursor = (s.answer c).2 := rfl
    rw [hCursor]
    generalize s.answer c = answer at hAnswer ⊢
    cases hAnswer with
    | @block offset hPower hFrom hAligned hFits =>
      unfold operatorStagingSize at hFits
      refine ⟨fun _ => ⟨Nat.le_add_right _ _, ?_, ?_, fun hLe => ?_⟩, fun hZero => ?_⟩
      · dsimp only
        omega
      · rwa [Nat.add_sub_cancel_left]
      · exact (alignment_dvd_base hLe hPower).add hAligned
      · unfold stagingBase extmemBase at hZero
        omega
    | none hReason =>
      refine ⟨fun hNonzero => absurd rfl hNonzero, fun _ => ⟨rfl, ?_⟩⟩
      rcases hReason with hZero | hOther
      · exact .inl (UInt32.toNat_inj.1 hZero)
      · exact .inr hOther

end OpenNpux.Firmware
