import PteSysbench.ActionSystem
import PteSysbench.MemoryWalk
import Mathlib.Data.List.GetD
import Mathlib.Data.List.Nodup

/-!
The page tables `memory_init` expands, and the addresses the events pass to the
metadata calls afterwards. `enable_pte_meta(addr)` is a call to a kernel outside
this repository: it expands the page table that maps `addr` and fails with
EEXIST on one that is expanded already.
-/

namespace PteSysbench.PageTableRegions

open MemoryWalk

/-- One page table maps 512 pages of 4 KiB. -/
def regionSize : Nat := 512 * 4096

def region (addr : Nat) : Nat := addr / regionSize

/-! The addresses of the metadata calls. -/
section Calls

/-- Words of its buffer that an event walks over or draws from. -/
def walkedWords (st : MemoryState) : Nat :=
  match st.oper, st.accessRnd with
  | .none, _ => 0
  | _, false => st.maxOffset
  | _, true => st.maxOffset % 2 ^ 32 + 1

/-- `sb_rand_default(a, b)` returns a number of the closed interval. -/
def InRange (inputs : EventInputs) : Prop :=
  ∀ k a b, a ≤ b → a ≤ inputs.sbRandDefault k a b ∧ inputs.sbRandDefault k a b ≤ b

theorem mem_seq_walk (count buf addr : Nat) (turn : Nat → Nat → List MemOp) :
    addr ∈ metaCalls (seqWalk count buf turn) ↔
      ∃ i < count, addr ∈ metaCalls (turn i (buf + 8 * i)) := by
  simp [seqWalk, meta_calls_flat_map]

theorem mem_rnd_walk (st : MemoryState) (inputs : EventInputs) (tid addr : Nat)
    (turn : Nat → Nat → List MemOp) :
    addr ∈ metaCalls (rndWalk st inputs tid turn) ↔
      ∃ i < st.maxOffset + 1, addr ∈ metaCalls
        (turn i (st.buffer tid + 8 * inputs.sbRandDefault i 0 (st.maxOffset % 2 ^ 32))) := by
  simp [rndWalk, meta_calls_flat_map]

/-- The turn of a read or write event makes its call, if any, on its own word. -/
theorem mem_turn_call (st : MemoryState) (malloced : Option (Nat → UInt8))
    (addr value stored other : Nat) :
    (other ∈ metaCalls (pteMetaRead st addr ++ [.load addr]) → other = addr) ∧
    (other ∈ metaCalls (pteMetaWrite st malloced addr value ++ [.store addr stored]) →
      other = addr) := by
  constructor
  · intro member
    rw [meta_calls_append, meta_calls_load, List.append_nil, meta_calls_pte_meta_read] at member
    split at member
    · exact List.mem_singleton.mp member
    · exact absurd member List.not_mem_nil
  · intro member
    rw [meta_calls_append, meta_calls_store, List.append_nil] at member
    exact (mem_meta_calls_pte_meta_write st malloced addr value other member).1

theorem call_inside_walk (st : MemoryState) (inputs : EventInputs) (tid addr : Nat)
    (drawn : InRange inputs) (member : addr ∈ metaCalls (executeEvent st inputs tid)) :
    ∃ i < walkedWords st, addr = st.buffer tid + 8 * i := by
  have offset : ∀ k, inputs.sbRandDefault k 0 (st.maxOffset % 2 ^ 32) <
      st.maxOffset % 2 ^ 32 + 1 := by
    intro k
    exact Nat.lt_succ_of_le (drawn k 0 _ (Nat.zero_le _)).2
  cases operation : st.oper <;> cases mode : st.accessRnd <;>
    simp only [executeEvent, operation, mode] at member
  case none.false =>
    obtain ⟨_, _, impossible⟩ := (mem_seq_walk _ _ _ _).mp member
    exact absurd impossible List.not_mem_nil
  case none.true =>
    obtain ⟨_, _, impossible⟩ := (mem_rnd_walk _ _ _ _ _).mp member
    exact absurd impossible List.not_mem_nil
  case read.false =>
    obtain ⟨i, bound, here⟩ := (mem_seq_walk _ _ _ _).mp member
    exact ⟨i, by simpa [walkedWords, operation, mode] using bound,
      (mem_turn_call st none _ 0 0 addr).1 here⟩
  case read.true =>
    obtain ⟨i, _, here⟩ := (mem_rnd_walk _ _ _ _ _).mp member
    exact ⟨_, by simpa [walkedWords, operation, mode] using offset i,
      (mem_turn_call st none _ 0 0 addr).1 here⟩
  case write.false =>
    obtain ⟨i, bound, here⟩ := (mem_seq_walk _ _ _ _).mp member
    exact ⟨i, by simpa [walkedWords, operation, mode] using bound,
      (mem_turn_call st (inputs.malloced i) _ i tid addr).2 here⟩
  case write.true =>
    obtain ⟨i, _, here⟩ := (mem_rnd_walk _ _ _ _ _).mp member
    exact ⟨_, by simpa [walkedWords, operation, mode] using offset i,
      (mem_turn_call st (inputs.malloced i) _ i i addr).2 here⟩

/-- Every draw as close to `word` as its interval allows, and memory for every call. -/
def drawingWord (word : Nat) : EventInputs :=
  { sbRandDefault := fun _ a b => max a (min word b), malloced := fun _ => some fun _ => 0 }

theorem drawing_word_in_range (word : Nat) : InRange (drawingWord word) := by
  intro k a b ordered
  simp only [drawingWord]
  omega

/-- Some event reaches each walked word. -/
theorem walked_word_called (st : MemoryState) (tid word : Nat)
    (enabled : st.pteMetaEnabled = true) (walked : word < walkedWords st) :
    st.buffer tid + 8 * word ∈ metaCalls (executeEvent st (drawingWord word) tid) := by
  have readCall : ∀ addr, addr ∈ metaCalls (pteMetaRead st addr ++ [.load addr]) := by
    intro addr
    simp [meta_calls_pte_meta_read, enabled]
  have writeCall : ∀ addr value stored, addr ∈ metaCalls
      (pteMetaWrite st (some fun _ => 0) addr value ++ [.store addr stored]) := by
    intro addr value stored
    simp [meta_calls_pte_meta_write st _ addr value enabled]
  have offset (random : st.accessRnd = true) (moves : st.oper ≠ .none) :
      (drawingWord word).sbRandDefault 0 0 (st.maxOffset % 2 ^ 32) = word := by
    have inside : word < st.maxOffset % 2 ^ 32 + 1 := by
      revert walked moves
      cases operation : st.oper <;> simp [walkedWords, operation, random]
    simp only [drawingWord]
    omega
  cases operation : st.oper <;> cases mode : st.accessRnd <;>
    simp only [executeEvent, operation, mode]
  case none.false | none.true =>
    simp [walkedWords, operation] at walked
  case read.false =>
    exact (mem_seq_walk _ _ _ _).mpr
      ⟨word, by simpa [walkedWords, operation, mode] using walked, readCall _⟩
  case read.true =>
    refine (mem_rnd_walk _ _ _ _ _).mpr ⟨0, Nat.succ_pos _, ?_⟩
    rw [offset mode (by simp [operation])]
    exact readCall _
  case write.false =>
    exact (mem_seq_walk _ _ _ _).mpr
      ⟨word, by simpa [walkedWords, operation, mode] using walked, writeCall _ _ _⟩
  case write.true =>
    refine (mem_rnd_walk _ _ _ _ _).mpr ⟨0, Nat.succ_pos _, ?_⟩
    rw [offset mode (by simp [operation])]
    exact writeCall _ _ _
end Calls

/-! Which regions are expanded. -/
section Enabled

/-- What a successful `memory_init` leaves for the allocations it made. -/
theorem memory_init_enables (opts : MemoryOptions) (threads : Nat) (alloc : Allocations)
    (st : MemoryState) (started : memoryInit opts threads alloc = .ok st)
    (enabled : opts.pteMeta = true) :
    st.pteMetaEnabled = true ∧ st.enableCalls = enableArguments alloc st.buffers st.scope ∧
      allocateBuffers alloc threads st.scope = .ok st.buffers := by
  unfold memoryInit at started
  cases accepted : checkBlockSize opts.blockSize with
  | none => simp [accepted] at started
  | some block =>
      simp only [accepted] at started
      obtain ⟨scope, _, started⟩ := ActionSystem.bind_ok _ _ _ started
      split at started
      · cases started
      obtain ⟨oper, _, started⟩ := ActionSystem.bind_ok _ _ _ started
      obtain ⟨accessRnd, _, started⟩ := ActionSystem.bind_ok _ _ _ started
      obtain ⟨buffers, allocated, started⟩ := ActionSystem.bind_ok _ _ _ started
      cases started
      simp [enabled, allocated]

theorem allocate_local_length (alloc : Nat → Option Nat) (i threads : Nat) (buffers : List Nat)
    (allocated : allocateLocal alloc i threads = .ok buffers) : buffers.length = threads := by
  induction threads generalizing i buffers with
  | zero =>
      cases allocated
      rfl
  | succ left ih =>
      unfold allocateLocal at allocated
      cases here : alloc i with
      | none => simp [here] at allocated
      | some buffer =>
          cases later : allocateLocal alloc (i + 1) left with
          | error message => simp [here, later, Except.map] at allocated
          | ok rest =>
              simp only [here, later, Except.map, Except.ok.injEq] at allocated
              rw [← allocated, List.length_cons, ih (i + 1) rest later]

/-- The arguments of `enable_pte_meta` are the starts of the buffers, each
buffer once. -/
theorem enable_arguments_starts (alloc : Allocations) (threads : Nat) (scope : MemoryScope)
    (buffers : List Nat) (allocated : allocateBuffers alloc threads scope = .ok buffers) :
    buffers.length = threads ∧
      (∀ start ∈ buffers, start ∈ enableArguments alloc buffers scope) ∧
      (0 < threads → ∀ start ∈ enableArguments alloc buffers scope, start ∈ buffers) := by
  cases scope with
  | global =>
      unfold allocateBuffers at allocated
      cases block : alloc.block 0 with
      | none => simp [block] at allocated
      | some buffer =>
          simp only [block] at allocated
          split at allocated
          · cases allocated
            simp only [enableArguments, block, Option.toList, List.mem_singleton,
              List.length_replicate, List.mem_replicate, true_and]
            exact ⟨fun _ member => member.2, fun some_ _ same => ⟨Nat.ne_of_gt some_, same⟩⟩
          · cases allocated
  | localScope =>
      simp only [allocateBuffers] at allocated
      split at allocated
      · exact ⟨allocate_local_length _ _ _ _ allocated, fun _ member => member,
          fun _ _ member => member⟩
      · cases allocated

/-- Every metadata call of an event of one of the threads is on an expanded region. -/
def CallsEnabled (st : MemoryState) (threads : Nat) : Prop :=
  ∀ inputs, InRange inputs → ∀ tid < threads,
    ∀ addr ∈ metaCalls (executeEvent st inputs tid), region addr ∈ st.enableCalls.map region

/-- No region is expanded twice. -/
def EnabledOnce (st : MemoryState) : Prop := (st.enableCalls.map region).Nodup

/-- Every region that the walked part of a buffer reaches holds the start of a buffer. -/
def RegionsHoldStarts (st : MemoryState) : Prop :=
  ∀ buf ∈ st.buffers, ∀ r, region buf ≤ r → r * regionSize < buf + 8 * walkedWords st →
    ∃ start ∈ st.buffers, region start = r

theorem buffer_mem (st : MemoryState) (tid : Nat) (bound : tid < st.buffers.length) :
    st.buffer tid ∈ st.buffers := by
  rw [MemoryState.buffer, List.getD_eq_getElem _ _ bound]
  exact List.getElem_mem bound

theorem calls_enabled_of_starts (st : MemoryState) (threads : Nat)
    (sized : st.buffers.length = threads)
    (started : ∀ start ∈ st.buffers, start ∈ st.enableCalls) (hold : RegionsHoldStarts st) :
    CallsEnabled st threads := by
  intro inputs drawn tid bound addr member
  obtain ⟨i, walked, same⟩ := call_inside_walk st inputs tid addr drawn member
  -- the address lies between the start of its buffer and the last walked word
  have above : region (st.buffer tid) ≤ region addr :=
    Nat.div_le_div_right (by omega)
  have below : region addr * regionSize < st.buffer tid + 8 * walkedWords st := by
    have start := Nat.div_mul_le_self addr regionSize
    unfold region
    omega
  obtain ⟨start, inBuffers, here⟩ :=
    hold (st.buffer tid) (buffer_mem st tid (sized ▸ bound)) (region addr) above below
  exact List.mem_map.mpr ⟨start, started start inBuffers, here⟩

/-- The first word of a region that the walk of an aligned buffer enters is a
walked word of the buffer. -/
theorem region_start_walked (buf count r : Nat) (aligned : 8 ∣ buf)
    (later : region buf < r) (reached : r * regionSize < buf + 8 * count) :
    ∃ word < count, r * regionSize = buf + 8 * word := by
  -- the region starts behind the buffer's first byte
  have after : buf < r * regionSize := by
    have below := Nat.lt_mul_div_succ buf (by decide : 0 < regionSize)
    have ordered := Nat.mul_le_mul_right regionSize (show buf / regionSize + 1 ≤ r from later)
    rw [Nat.mul_comm] at below
    omega
  have wordAligned : 8 ∣ r * regionSize := Dvd.dvd.mul_left (by decide) r
  obtain ⟨word, same⟩ := Nat.dvd_sub wordAligned aligned
  exact ⟨word, by omega, by omega⟩

theorem starts_of_calls_enabled (st : MemoryState) (threads : Nat)
    (enabled : st.pteMetaEnabled = true) (sized : st.buffers.length = threads)
    (only : 0 < threads → ∀ start ∈ st.enableCalls, start ∈ st.buffers)
    (aligned : ∀ buf ∈ st.buffers, 4096 ∣ buf) (calls : CallsEnabled st threads) :
    RegionsHoldStarts st := by
  intro buf member r above reached
  by_cases same : region buf = r
  · exact ⟨buf, member, same⟩
  -- another region than the first: some event calls on its first word
  · obtain ⟨tid, bound, here⟩ := List.getElem_of_mem member
    have buffer : st.buffer tid = buf := by
      rw [MemoryState.buffer, List.getD_eq_getElem _ _ bound, here]
    obtain ⟨word, walked, at_⟩ := region_start_walked buf (walkedWords st) r
      (Dvd.dvd.trans (by decide) (aligned buf member)) (by omega) reached
    have call := walked_word_called st tid word enabled walked
    rw [buffer, ← at_] at call
    obtain ⟨start, expanded, inRegion⟩ := List.mem_map.mp
      (calls _ (drawing_word_in_range word) tid (sized ▸ bound) _ call)
    refine ⟨start, only (by omega) start expanded, ?_⟩
    rw [inRegion, region, Nat.mul_div_cancel _ (by decide)]

theorem enabled_once_iff (alloc : Allocations) (st : MemoryState) (threads : Nat)
    (expands : st.enableCalls = enableArguments alloc st.buffers st.scope)
    (allocated : allocateBuffers alloc threads st.scope = .ok st.buffers) :
    EnabledOnce st ↔ st.scope = .global ∨ (st.buffers.map region).Nodup := by
  unfold EnabledOnce
  rw [expands]
  cases scope : st.scope with
  | global =>
      rw [scope] at allocated
      cases block : alloc.block 0 with
      | none => simp [allocateBuffers, block] at allocated
      | some buffer => simp [enableArguments, block]
  | localScope => simp [enableArguments]

/-- With metadata on, the calls of all events are on expanded regions and no
region is expanded twice, exactly for placements where each region a buffer
reaches holds the start of some buffer, and local buffers start in different
regions. -/
theorem regions_enabled_iff (opts : MemoryOptions) (threads : Nat) (alloc : Allocations)
    (st : MemoryState) (started : memoryInit opts threads alloc = .ok st)
    (enabled : opts.pteMeta = true) (aligned : ∀ buf ∈ st.buffers, 4096 ∣ buf) :
    (CallsEnabled st threads ∧ EnabledOnce st) ↔
      RegionsHoldStarts st ∧ (st.scope = .global ∨ (st.buffers.map region).Nodup) := by
  obtain ⟨active, expands, allocated⟩ := memory_init_enables opts threads alloc st started enabled
  obtain ⟨sized, every, only⟩ := enable_arguments_starts alloc threads st.scope st.buffers allocated
  rw [← expands] at every only
  rw [enabled_once_iff alloc st threads expands allocated]
  constructor
  · rintro ⟨calls, once⟩
    exact ⟨starts_of_calls_enabled st threads active sized only aligned calls, once⟩
  · rintro ⟨hold, once⟩
    exact ⟨calls_enabled_of_starts st threads sized every hold, once⟩

theorem regions_enabled_iff_default :
    memoryInit (defaultOptions "seq") 1 (onePageAt 0x10000) = .ok (defaultState false) ∧
    ((CallsEnabled (defaultState false) 1 ∧ EnabledOnce (defaultState false)) ↔
      RegionsHoldStarts (defaultState false) ∧
        ((defaultState false).scope = .global ∨
          ((defaultState false).buffers.map region).Nodup)) :=
  ⟨rfl, regions_enabled_iff (defaultOptions "seq") 1 (onePageAt 0x10000) (defaultState false)
    rfl rfl (by decide)⟩

/-- `--memory-block-size=4M`, everything else as in `defaultOptions`. -/
def largeOptions : MemoryOptions :=
  { defaultOptions "seq" with blockSize := 2 ^ 22, blockSizeText := "4M" }

def largeState : MemoryState :=
  { defaultState false with
    blockSize := ⟨2 ^ 22, by decide, by decide, by decide⟩
    buffers := [2 ^ 30], threadCounters := [100 * 2 ^ 8], enableCalls := [2 ^ 30] }

/-- The second page table of a 4 MiB buffer is written to and never expanded. -/
theorem second_region_not_enabled :
    memoryInit largeOptions 1 (onePageAt (2 ^ 30)) = .ok largeState ∧
      (∀ buf ∈ largeState.buffers, 4096 ∣ buf) ∧
      ¬ (CallsEnabled largeState 1 ∧ EnabledOnce largeState) := by
  refine ⟨rfl, by decide, ?_⟩
  rintro ⟨calls, _⟩
  have hold := starts_of_calls_enabled largeState 1 rfl rfl (fun _ _ member => member)
    (by decide) calls
  obtain ⟨start, member, here⟩ := hold (2 ^ 30) (by decide) 513 (by decide) (by decide)
  rw [List.mem_singleton.mp member] at here
  exact absurd here (by decide)
end Enabled
end PteSysbench.PageTableRegions
