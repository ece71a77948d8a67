import PteSysbench.MemoryWalk
import Mathlib.Algebra.Group.Nat.Defs

/-!
Allocation from the HugeTLB pool (`HAVE_LARGE_PAGES`, 64-bit build):
`hugetlb_alloc` of sb_memory.c, the block that `memory_init` clears in the
segment and the words that the event functions access.
-/

namespace PteSysbench.HugeTlb

open MemoryWalk

/-! `hugetlb_alloc`. A `size_t` is a `UInt64`. -/
section Allocation

/-- `LARGE_PAGE_SIZE`. -/
def largePageSize : UInt64 := 4 * 1024 * 1024

/-- "Align block size to my_large_page_size". -/
def segmentSize (size : UInt64) : UInt64 :=
  ((size - 1) &&& ~~~largePageSize) + largePageSize

inductive ShmCall where
  | shmget (size : UInt64)
  | shmat (shmid : Int)
  | rmid (shmid : Int)
  deriving DecidableEq

/-- Answers of the system; `shmat` is `none` for `(void *)-1`. -/
structure SharedMemory where
  shmget : UInt64 → Int
  shmat : Int → Option Nat

structure Outcome where
  calls : List ShmCall
  /-- Texts of `log_errno(LOG_FATAL, ...)`. -/
  logged : List String
  ptr : Option Nat

def hugetlbAlloc (system : SharedMemory) (size : UInt64) : Outcome :=
  let size := segmentSize size
  let shmid := system.shmget size
  if shmid < 0 then
    { calls := [.shmget size]
      logged := ["Failed to allocate " ++ toString (toSigned size.toNat) ++
        " bytes from HugeTLB memory."]
      ptr := none }
  else
    match system.shmat shmid with
    | none =>
        { calls := [.shmget size, .shmat shmid, .rmid shmid]
          logged := ["Failed to attach shared memory segment,"]
          ptr := none }
    | some ptr =>
        { calls := [.shmget size, .shmat shmid, .rmid shmid], logged := [], ptr := some ptr }

/-- Sizes of the segments that were asked for. -/
def requested (calls : List ShmCall) : List UInt64 :=
  calls.filterMap fun
    | .shmget size => some size
    | _ => none

theorem hugetlb_requested (system : SharedMemory) (size : UInt64) :
    requested (hugetlbAlloc system size).calls = [segmentSize size] := by
  unfold hugetlbAlloc
  dsimp only
  split
  · rfl
  · split <;> rfl
end Allocation

/-! The mask clears the bit of `LARGE_PAGE_SIZE` and the addition sets it again. -/
section Rounding

theorem cleared_bit_added (value page : UInt64) : (value &&& ~~~page) + page = value ||| page := by
  apply UInt64.toBitVec_inj.mp
  have apart : value.toBitVec &&& ~~~page.toBitVec &&& page.toBitVec = 0#64 := by
    rw [BitVec.and_assoc, BitVec.and_comm (~~~page.toBitVec), BitVec.and_not_self]
    exact BitVec.and_zero
  calc (value.toBitVec &&& ~~~page.toBitVec) + page.toBitVec
      = (value.toBitVec &&& ~~~page.toBitVec) ||| page.toBitVec :=
        BitVec.add_eq_or_of_and_eq_zero _ _ apart
    _ = value.toBitVec ||| page.toBitVec := by
        ext i
        simp only [BitVec.getElem_or, BitVec.getElem_and, BitVec.getElem_not]
        cases value.toBitVec[i] <;> cases page.toBitVec[i] <;> rfl

theorem segment_size_or (size : UInt64) : segmentSize size = (size - 1) ||| largePageSize :=
  cleared_bit_added _ _

theorem two_pow_or_of_lt {k page : Nat} (above : page < k) :
    2 ^ k - 1 ||| 2 ^ page = 2 ^ k - 1 := by
  apply Nat.eq_of_testBit_eq
  intro i
  rw [Nat.testBit_or, Nat.testBit_two_pow_sub_one, Nat.testBit_two_pow]
  rcases Nat.decEq page i with apart | same
  · simp [apart]
  · simp [← same, above]

theorem two_pow_or_of_le {k page : Nat} (below : k ≤ page) :
    2 ^ k - 1 ||| 2 ^ page = 2 ^ page + (2 ^ k - 1) := by
  have small : 2 ^ k - 1 < 2 ^ page := by
    have powers := Nat.pow_le_pow_right (by decide : 0 < 2) below
    have positive := Nat.two_pow_pos k
    omega
  have joined := Nat.two_pow_add_eq_or_of_lt small 1
  rw [Nat.mul_one] at joined
  rw [joined, Nat.or_comm]

variable (block : BlockSize)

theorem block_power : ∃ k, 3 ≤ k ∧ block.bytes = 2 ^ k := by
  have positive : block.bytes ≠ 0 := by have := block.wordSized; omega
  obtain ⟨k, power⟩ := (Nat.and_sub_one_eq_zero_iff_isPowerOfTwo positive).mp block.onePower
  refine ⟨k, ?_, power⟩
  have wordSized := block.wordSized
  rw [power] at wordSized
  exact (Nat.pow_le_pow_iff_right (by decide : 1 < 2)).mp wordSized

/-- The request of `memory_init` for a block. -/
def blockSegment : Nat := (segmentSize (UInt64.ofNat block.bytes)).toNat

theorem block_segment_or : blockSegment block = block.bytes - 1 ||| 2 ^ 22 := by
  have signed := block.signed
  have wordSized := block.wordSized
  have exactly : (UInt64.ofNat block.bytes).toNat = block.bytes :=
    UInt64.toNat_ofNat_of_lt' (by omega : block.bytes < 2 ^ 64)
  have one : (1 : UInt64) ≤ UInt64.ofNat block.bytes := by
    rw [UInt64.le_iff_toNat_le, exactly]
    exact Nat.le_trans (by decide) wordSized
  rw [blockSegment, segment_size_or, UInt64.toNat_or, UInt64.toNat_sub_of_le _ _ one, exactly]
  rfl

/-- Up to one large page the page is added to the size less one. -/
theorem block_segment_small (small : block.bytes ≤ 2 ^ 22) :
    blockSegment block = 2 ^ 22 + (block.bytes - 1) := by
  obtain ⟨k, _, power⟩ := block_power block
  rw [block_segment_or, power]
  rw [power] at small
  exact two_pow_or_of_le ((Nat.pow_le_pow_iff_right (by decide : 1 < 2)).mp small)

/-- A larger block loses its last byte. -/
theorem block_segment_large (large : 2 ^ 22 < block.bytes) :
    blockSegment block = block.bytes - 1 := by
  obtain ⟨k, _, power⟩ := block_power block
  rw [block_segment_or, power]
  rw [power] at large
  exact two_pow_or_of_lt ((Nat.pow_lt_pow_iff_right (by decide : 1 < 2)).mp large)

theorem block_even : block.bytes % 2 = 0 := by
  have words := block_in_words block
  omega

/-- The request is odd, whatever the size. -/
theorem block_segment_odd : blockSegment block % 2 = 1 := by
  have even := block_even block
  have wordSized := block.wordSized
  rcases Nat.lt_or_ge (2 ^ 22) block.bytes with large | small
  · rw [block_segment_large block large]
    omega
  · rw [block_segment_small block small]
    omega

theorem block_segment_enough_iff :
    block.bytes ≤ blockSegment block ↔ block.bytes ≤ 2 ^ 22 := by
  have wordSized := block.wordSized
  rcases Nat.lt_or_ge (2 ^ 22) block.bytes with large | small
  · rw [block_segment_large block large]
    omega
  · rw [block_segment_small block small]
    omega

theorem block_segment_below : blockSegment block < block.bytes + 2 ^ 22 := by
  have wordSized := block.wordSized
  rcases Nat.lt_or_ge (2 ^ 22) block.bytes with large | small
  · rw [block_segment_large block large]
    omega
  · rw [block_segment_small block small]
    omega
end Rounding

/-! What `memory_init` and the events need of the segment. -/
section Segment

/-- Every offset drawn for an event over the block is a word of it. -/
def DrawnInside (st : MemoryState) (inputs : EventInputs) : Prop :=
  ∀ i < st.blockSize.bytes / 8,
    inputs.sbRandDefault i 0 (st.maxOffset % 2 ^ 32) < st.blockSize.bytes / 8

/-- The words of an event, in a segment of `size` bytes attached at the thread's buffer. -/
def EventInside (st : MemoryState) (inputs : EventInputs) (tid size : Nat) : Prop :=
  ∀ addr ∈ accessed (executeEvent st inputs tid),
    st.buffer tid ≤ addr ∧ addr + 8 ≤ st.buffer tid + size

/-- A segment for a block: whole large pages, none too many, and room for
`memset` and for every event. -/
structure Serves (block : BlockSize) (size : Nat) : Prop where
  wholePages : largePageSize.toNat ∣ size
  holdsBlock : block.bytes ≤ size
  noSparePage : size < block.bytes + largePageSize.toNat
  cleared : ∀ i < block.bytes, i < size
  events : ∀ (st : MemoryState) (inputs : EventInputs) (tid : Nat), st.blockSize = block →
    DrawnInside st inputs → EventInside st inputs tid size

/-- An event stays in the block. -/
theorem event_inside_block (st : MemoryState) (inputs : EventInputs) (tid : Nat)
    (drawn : DrawnInside st inputs) : EventInside st inputs tid st.blockSize.bytes := by
  have words := block_in_words st.blockSize
  have turns : st.maxOffset + 1 = st.blockSize.bytes / 8 := max_offset_succ st.blockSize
  intro addr member
  -- without an operation nothing is touched, else words of the block
  cases operation : st.oper with
  | none =>
      have silent : accessed (executeEvent st inputs tid) = [] := by
        cases mode : st.accessRnd <;>
          simp [executeEvent, operation, mode, eventRndNone, eventSeqNone, rndWalk, seqWalk,
            accessed]
      rw [silent] at member
      exact absurd member List.not_mem_nil
  | read | write =>
      have moves : st.oper ≠ .none := by rw [operation]; decide
      cases mode : st.accessRnd with
      | false =>
          rw [seq_event_accessed st inputs tid moves mode, mem_words_from] at member
          obtain ⟨i, inside, rfl⟩ := member
          omega
      | true =>
          rw [rnd_event_accessed st inputs tid moves mode] at member
          obtain ⟨i, turn, rfl⟩ := List.mem_map.mp member
          have word := drawn i (by rw [← turns]; exact List.mem_range.mp turn)
          omega

/-- What is large enough for the block is large enough for the events. -/
theorem events_inside_of_enough {block : BlockSize} {size : Nat} (enough : block.bytes ≤ size)
    (st : MemoryState) (inputs : EventInputs) (tid : Nat) (same : st.blockSize = block)
    (drawn : DrawnInside st inputs) : EventInside st inputs tid size := by
  intro addr member
  have inside := event_inside_block st inputs tid drawn addr member
  rw [same] at inside
  omega

theorem memset_inside_iff (block : BlockSize) (size : Nat) :
    (∀ i < block.bytes, i < size) ↔ block.bytes ≤ size := by
  have wordSized := block.wordSized
  constructor
  · intro inside
    have last := inside (block.bytes - 1) (by omega)
    omega
  · intro enough i below
    omega

/-- The segment that `hugetlb_alloc` asks for never serves its block: it is no
multiple of the page, and beyond one page it is a byte short. -/
theorem hugetlb_segment_never_serves (block : BlockSize) (system : SharedMemory) :
    requested (hugetlbAlloc system (UInt64.ofNat block.bytes)).calls =
        [segmentSize (UInt64.ofNat block.bytes)] ∧
      ¬ Serves block (segmentSize (UInt64.ofNat block.bytes)).toNat ∧
      ((∀ i < block.bytes, i < (segmentSize (UInt64.ofNat block.bytes)).toNat) ↔
        block.bytes ≤ largePageSize.toNat) := by
  refine ⟨hugetlb_requested system _, ?_, ?_⟩
  · intro serves
    have odd : (segmentSize (UInt64.ofNat block.bytes)).toNat % 2 = 1 := block_segment_odd block
    have whole := serves.wholePages
    have even : 2 ∣ largePageSize.toNat := by decide
    have halves := Nat.dvd_trans even whole
    omega
  · rw [memset_inside_iff]
    exact block_segment_enough_iff block

/-- The allocations of `memory_init` with `--memory-hugetlb`; `systems k` answers the k-th one. -/
def hugetlbAllocations (systems : Nat → SharedMemory) (size : UInt64) : Allocations :=
  { block := fun k => (hugetlbAlloc (systems k) size).ptr, threadArrays := true }

/-- `--memory-block-size=8M --memory-hugetlb`. -/
def eightMegabytes : MemoryOptions :=
  { defaultOptions "seq" with blockSize := 8 * 2 ^ 20, blockSizeText := "8M" }

def attachedAt (addr : Nat) : SharedMemory := { shmget := fun _ => 1, shmat := fun _ => some addr }

/-- The segment is one byte shorter than the block that is cleared in it. -/
theorem hugetlb_segment_short :
    (∃ st, memoryInit eightMegabytes 1
        (hugetlbAllocations (fun _ => attachedAt 0x40000000) 8388608) = .ok st ∧
      st.blockSize.bytes = 8388608 ∧
      ¬ Serves st.blockSize (segmentSize 8388608).toNat) ∧
    requested (hugetlbAlloc (attachedAt 0x40000000) 8388608).calls = [8388607] := by
  refine ⟨⟨_, rfl, rfl, ?_⟩, by decide⟩
  intro serves
  have short : ¬ 8388608 ≤ (segmentSize 8388608).toNat := by decide
  exact short serves.holdsBlock
end Segment
end PteSysbench.HugeTlb
