import PteSysbench.MemoryWalk

/-!
Which words the random events reach. `max_offset` is a signed 64-bit number; the bounds of
the generator, and the width it takes from them, are of 32 bits.
-/

namespace PteSysbench.OffsetCoverage

open MemoryWalk SbRand

/-- `sb_rand_default(0, max_offset)` with the uniform distribution. -/
def drawnOffset (block : BlockSize) (x : UInt64) : Nat :=
  sbRandUniform x 0 (block.maxOffset % 2 ^ 32)

structure OffsetsCover (block : BlockSize) : Prop where
  inside : ∀ x, drawnOffset block x ≤ block.maxOffset
  every : ∀ offset ≤ block.maxOffset, ∃ x, drawnOffset block x = offset

def uniformInputs (raw : Nat → UInt64) (malloced : Nat → Option (Nat → UInt8)) : EventInputs :=
  { sbRandDefault := fun i a b => sbRandUniform (raw i) a b, malloced := malloced }

/-- The event stays in the buffer of its thread, and there is no word it cannot reach. -/
structure ReachesWords (st : MemoryState) (tid : Nat) (event : EventInputs → List MemOp) :
    Prop where
  inside : ∀ raw malloced, ∀ addr ∈ accessed (event (uniformInputs raw malloced)),
    addr ∈ wordsFrom (st.buffer tid) (st.maxOffset + 1)
  every : ∀ malloced, ∀ addr ∈ wordsFrom (st.buffer tid) (st.maxOffset + 1),
    ∃ raw, addr ∈ accessed (event (uniformInputs raw malloced))

section Widths
variable (block : BlockSize)

/-- The width the generator computes. -/
theorem drawn_offset_eq (x : UInt64) :
    drawnOffset block x =
      sbRandUniformDouble x * ((block.bytes / 8) % 2 ^ 32) / 2 ^ 52 % 2 ^ 32 := by
  have words := max_offset_succ block
  have width : (block.maxOffset % 2 ^ 32 + 2 ^ 32 - 0 + 1) % 2 ^ 32 =
      (block.bytes / 8) % 2 ^ 32 := by
    omega
  rw [drawnOffset, sbRandUniform, width, Nat.zero_add]

theorem offset_inside (x : UInt64) : drawnOffset block x ≤ block.maxOffset :=
  (uniform_from_zero_le x _ (Nat.mod_lt _ (by decide))).trans (Nat.mod_le _ _)

/-- From 2^32 words on nothing is left of the width. -/
theorem wide_offset (large : 2 ^ 35 ≤ block.bytes) (x : UInt64) : drawnOffset block x = 0 := by
  have positive : block.bytes ≠ 0 := by omega
  obtain ⟨k, power⟩ := (Nat.and_sub_one_eq_zero_iff_isPowerOfTwo positive).mp block.onePower
  have exponent : 35 ≤ k := by
    rw [power] at large
    exact (Nat.pow_le_pow_iff_right (by decide : 1 < 2)).mp large
  have whole : 2 ^ 35 ∣ block.bytes := by
    rw [power]
    exact Nat.pow_dvd_pow 2 exponent
  have none_ : (block.bytes / 8) % 2 ^ 32 = 0 := by omega
  rw [drawn_offset_eq, none_, Nat.mul_zero]
  rfl

theorem offsets_cover_iff : OffsetsCover block ↔ block.bytes < 2 ^ 35 := by
  have words := max_offset_succ block
  have wordSized := block.wordSized
  constructor
  · intro covers
    by_contra large
    obtain ⟨x, drawn⟩ := covers.every 1 (by omega)
    rw [wide_offset block (Nat.not_lt.mp large)] at drawn
    cases drawn
  · intro small
    refine ⟨offset_inside block, fun offset below => ?_⟩
    obtain ⟨x, drawn⟩ := scaled_draw_every (block.bytes / 8) offset (by omega) (by omega)
    refine ⟨x, ?_⟩
    rw [drawn_offset_eq, Nat.mod_eq_of_lt (by omega : block.bytes / 8 < 2 ^ 32), drawn]
    omega
end Widths

section Events
variable (st : MemoryState) (tid : Nat)

/-- An event that accesses the drawn word in each of its turns. -/
theorem reaches_of_cover (event : EventInputs → List MemOp)
    (drawn : ∀ inputs, accessed (event inputs) = (List.range (st.maxOffset + 1)).map fun i =>
      st.buffer tid + 8 * inputs.sbRandDefault i 0 (st.maxOffset % 2 ^ 32))
    (covers : OffsetsCover st.blockSize) : ReachesWords st tid event := by
  constructor
  · intro raw malloced addr member
    rw [drawn] at member
    obtain ⟨i, _, rfl⟩ := List.mem_map.mp member
    have inside := covers.inside (raw i)
    exact (mem_words_from _ _ _).mpr
      ⟨drawnOffset st.blockSize (raw i), Nat.lt_succ_of_le inside, rfl⟩
  · intro malloced addr member
    obtain ⟨offset, below, rfl⟩ := (mem_words_from _ _ _).mp member
    obtain ⟨x, same⟩ := covers.every offset (Nat.le_of_lt_succ below)
    refine ⟨fun _ => x, ?_⟩
    rw [drawn]
    exact List.mem_map.mpr ⟨0, List.mem_range.mpr (Nat.succ_pos _), by rw [← same]; rfl⟩

/-- The random events reach every word just when the block has fewer than 2^32 of them. -/
theorem random_access_covers_iff :
    (OffsetsCover st.blockSize ∧ ReachesWords st tid (eventRndRead st · tid) ∧
      ReachesWords st tid (eventRndWrite st · tid)) ↔ st.blockSize.bytes < 2 ^ 35 := by
  rw [← offsets_cover_iff]
  refine ⟨fun all => all.1, fun covers => ⟨covers, ?_, ?_⟩⟩
  · exact reaches_of_cover st tid _
      (fun inputs => rnd_walk_accessed st inputs tid _ (by simp)) covers
  · exact reaches_of_cover st tid _
      (fun inputs => rnd_walk_accessed st inputs tid _ (by simp)) covers
end Events

/-- `--memory-block-size=32G --memory-access-mode=rnd`. -/
def largeOptions : MemoryOptions :=
  { defaultOptions "rnd" with blockSize := 2 ^ 35, blockSizeText := "32G" }

/-- The only word that is reached is the first one. -/
theorem large_block_one_word :
    ∃ st, memoryInit largeOptions 1 (onePageAt 0x10000) = .ok st ∧ st.maxOffset = 2 ^ 32 - 1 ∧
      (∀ x, drawnOffset st.blockSize x = 0) ∧ ¬ OffsetsCover st.blockSize := by
  obtain ⟨st, ready, size⟩ : ∃ st, memoryInit largeOptions 1 (onePageAt 0x10000) = .ok st ∧
      st.blockSize.bytes = 2 ^ 35 := ⟨_, rfl, rfl⟩
  have words : st.maxOffset + 1 = st.blockSize.bytes / 8 := max_offset_succ st.blockSize
  refine ⟨st, ready, by omega, wide_offset _ (by omega), fun covers => ?_⟩
  have small := (offsets_cover_iff _).mp covers
  omega
end PteSysbench.OffsetCoverage
