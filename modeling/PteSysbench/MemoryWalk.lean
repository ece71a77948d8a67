import PteSysbench.MetadataLayout
import PteSysbench.SbRand
import Mathlib.Data.List.Perm.Basic
import Mathlib.Algebra.Order.Field.Rat
import Mathlib.Tactic.FieldSimp

/-!
The memory test of sb_memory.c on a 64-bit build: `memory_init`, the six event
functions and the transfer figure of the cumulative report. An event is the
list of its system calls and word accesses, in program order. Allocation,
random numbers and malloc are inputs.
-/

namespace PteSysbench.MemoryWalk

open LittleEndian MetadataLayout

/-! Options as `memory_init` reads them, and what it leaves in the globals. -/
section Initialization

/-- Values of the memory options; sizes as `sb_get_value_size` returns them. -/
structure MemoryOptions where
  blockSize : Nat
  blockSizeText : String
  totalSize : Nat
  scope : String
  pteMeta : Bool
  pteMetaType : Int
  oper : String
  accessMode : String

inductive MemoryScope where
  | global
  | localScope
  deriving DecidableEq

inductive MemoryOper where
  | none
  | read
  | write
  deriving DecidableEq

/-- `ssize_t` and `long long` read from an `unsigned long long`. -/
def toSigned (value : Nat) : Int :=
  if value % 2 ^ 64 < 2 ^ 63 then (value % 2 ^ 64 : Nat) else (value % 2 ^ 64 : Nat) - 2 ^ 64

/-- An accepted `memory_block_size`: at least a `size_t`, and `B & (B - 1)` is 0. -/
structure BlockSize where
  bytes : Nat
  wordSized : 8 ≤ bytes
  onePower : bytes &&& (bytes - 1) = 0
  signed : bytes < 2 ^ 63

def checkBlockSize (value : Nat) : Option BlockSize :=
  let size := toSigned value
  if accepted : 8 ≤ size ∧ size.toNat &&& (size.toNat - 1) = 0 then
    some ⟨size.toNat, by omega, accepted.2, by
      have bound : toSigned value < 2 ^ 63 := by unfold toSigned; split <;> omega
      omega⟩
  else none

/-- `max_offset`: the index of the last word of a block. -/
def BlockSize.maxOffset (block : BlockSize) : Nat := block.bytes / 8 - 1

structure MemoryState where
  blockSize : BlockSize
  totalSize : Int
  scope : MemoryScope
  pteMetaEnabled : Bool
  pteMetaType : Int
  oper : MemoryOper
  accessRnd : Bool
  buffers : List Nat
  threadCounters : List Nat
  /-- Arguments of the `enable_pte_meta` calls, in order. -/
  enableCalls : List Nat

def parseScope (s : String) : Except String MemoryScope :=
  if s = "global" then .ok .global
  else if s = "local" then .ok .localScope
  else .error ("Invalid value for memory-scope: " ++ s)

def parseOper (s : String) : Except String MemoryOper :=
  if s = "write" then .ok .write
  else if s = "read" then .ok .read
  else if s = "none" then .ok .none
  else .error ("Invalid value for memory-oper: " ++ s)

def parseAccessMode (s : String) : Except String Bool :=
  if s = "seq" then .ok false
  else if s = "rnd" then .ok true
  else .error ("Invalid value for memory-access-mode: " ++ s)

/-- The local-scope part of the thread loop: one allocation a thread. -/
def allocateLocal (alloc : Nat → Option Nat) : Nat → Nat → Except String (List Nat)
  | _, 0 => .ok []
  | i, left + 1 =>
      match alloc i with
      | none => .error ("Failed to allocate buffer for thread #" ++ toString i ++ "!")
      | some buffer => (allocateLocal alloc (i + 1) left).map fun rest => buffer :: rest

/-- Results of the allocations: `block k` of the k-th buffer, `threadArrays`
whether both `thread_counters` and `buffers` were allocated. -/
structure Allocations where
  block : Nat → Option Nat
  threadArrays : Bool

/-- The buffer of every thread. -/
def allocateBuffers (alloc : Allocations) (threads : Nat) :
    MemoryScope → Except String (List Nat)
  | .global =>
      match alloc.block 0 with
      | none => .error "Failed to allocate buffer!"
      | some buffer =>
          if alloc.threadArrays then .ok (List.replicate threads buffer)
          else .error "Failed to allocate thread-local memory!"
  | .localScope =>
      if alloc.threadArrays then allocateLocal alloc.block 0 threads
      else .error "Failed to allocate thread-local memory!"

/-- Every allocation is followed by one `enable_pte_meta` on its first address. -/
def enableArguments (alloc : Allocations) (buffers : List Nat) : MemoryScope → List Nat
  | .global => (alloc.block 0).toList
  | .localScope => buffers

def memoryInit (opts : MemoryOptions) (threads : Nat) (alloc : Allocations) :
    Except String MemoryState :=
  match checkBlockSize opts.blockSize with
  | none => .error ("Invalid value for memory-block-size: " ++ opts.blockSizeText)
  | some block => do
      let scope ← parseScope opts.scope
      if opts.pteMetaType ≠ 0 ∧ opts.pteMetaType ≠ 1 then
        .error ("Invalid value for memory-pte-meta-type: " ++ toString opts.pteMetaType ++
          " (must be 0 or 1)")
      else do
        let oper ← parseOper opts.oper
        let accessRnd ← parseAccessMode opts.accessMode
        let buffers ← allocateBuffers alloc threads scope
        let total := toSigned opts.totalSize
        .ok {
          blockSize := block
          totalSize := total
          scope := scope
          pteMetaEnabled := opts.pteMeta
          pteMetaType := opts.pteMetaType
          oper := oper
          accessRnd := accessRnd
          buffers := buffers
          threadCounters := List.replicate threads
            (((total.tdiv block.bytes).tdiv threads) % 2 ^ 64).toNat
          enableCalls := if opts.pteMeta then enableArguments alloc buffers scope else [] }
end Initialization

/-! The event functions. -/
section Events

inductive MemOp where
  /-- `room` is the size of the buffer the answer is written to. -/
  | getPteMeta (addr room : Nat)
  | setPteMeta (addr mdp : Nat) (metaBytes : List UInt8)
  | load (addr : Nat)
  | store (addr value : Nat)
  deriving DecidableEq

/-- What one event takes from outside: its k-th `sb_rand_default(a, b)` and,
for MDP=1 writes, its k-th malloc. -/
structure EventInputs where
  sbRandDefault : Nat → Nat → Nat → Nat
  malloced : Nat → Option (Nat → UInt8)

def MemoryState.buffer (st : MemoryState) (tid : Nat) : Nat := st.buffers.getD tid 0

def MemoryState.maxOffset (st : MemoryState) : Nat := st.blockSize.maxOffset

def pteMetaRead (st : MemoryState) (addr : Nat) : List MemOp :=
  if st.pteMetaEnabled then
    if st.pteMetaType = 0 then [.getPteMeta addr 8]
    else [.getPteMeta addr (layoutSize syscallsHeader + 64)]
  else []

/-- A failed malloc in `set_pte_meta_structured` is logged and no call is made. -/
def pteMetaWrite (st : MemoryState) (malloced : Option (Nat → UInt8)) (addr value : Nat) :
    List MemOp :=
  if st.pteMetaEnabled then
    if st.pteMetaType = 0 then [.setPteMeta addr 0 (encode 8 value)]
    else ((setPteMetaStructured malloced 1 0x1234 (some (encode 8 value)) 8).map
      fun bytes => MemOp.setPteMeta addr 1 bytes).toList
  else []

/-- `for (buf = buffers[tid], end = buf + max_offset; ...; buf++)` taking
`count` turns, with the turn's number and word address. -/
def seqWalk (count buf : Nat) (turn : Nat → Nat → List MemOp) : List MemOp :=
  (List.range count).flatMap fun i => turn i (buf + 8 * i)

/-- `for (i = 0; i <= max_offset; i++)` with an offset drawn in each turn. The
arguments of `sb_rand_default` are `uint32_t`. -/
def rndWalk (st : MemoryState) (inputs : EventInputs) (tid : Nat)
    (turn : Nat → Nat → List MemOp) : List MemOp :=
  (List.range (st.maxOffset + 1)).flatMap fun i =>
    turn i (st.buffer tid + 8 * inputs.sbRandDefault i 0 (st.maxOffset % 2 ^ 32))

def eventRndNone (st : MemoryState) (inputs : EventInputs) (tid : Nat) : List MemOp :=
  rndWalk st inputs tid fun _ _ => []

def eventRndRead (st : MemoryState) (inputs : EventInputs) (tid : Nat) : List MemOp :=
  rndWalk st inputs tid fun _ addr => pteMetaRead st addr ++ [.load addr]

def eventRndWrite (st : MemoryState) (inputs : EventInputs) (tid : Nat) : List MemOp :=
  rndWalk st inputs tid fun i addr =>
    pteMetaWrite st (inputs.malloced i) addr i ++ [.store addr i]

/-- The loop test is `buf <= end`. -/
def eventSeqNone (st : MemoryState) (tid : Nat) : List MemOp :=
  seqWalk (st.maxOffset + 1) (st.buffer tid) fun _ _ => []

/-- The loop test is `buf < end`. -/
def eventSeqRead (st : MemoryState) (tid : Nat) : List MemOp :=
  seqWalk st.maxOffset (st.buffer tid) fun _ addr => pteMetaRead st addr ++ [.load addr]

/-- The loop test is `buf < end`. -/
def eventSeqWrite (st : MemoryState) (inputs : EventInputs) (tid : Nat) : List MemOp :=
  seqWalk st.maxOffset (st.buffer tid) fun counter addr =>
    pteMetaWrite st (inputs.malloced counter) addr counter ++ [.store addr tid]

/-- `memory_test.ops.execute_event` as `memory_init` chooses it. -/
def executeEvent (st : MemoryState) (inputs : EventInputs) (tid : Nat) : List MemOp :=
  match st.oper, st.accessRnd with
  | .none, true => eventRndNone st inputs tid
  | .none, false => eventSeqNone st tid
  | .read, true => eventRndRead st inputs tid
  | .read, false => eventSeqRead st tid
  | .write, true => eventRndWrite st inputs tid
  | .write, false => eventSeqWrite st inputs tid
end Events

/-! What a list of operations touches. -/
section Touched

def accessed (ops : List MemOp) : List Nat :=
  ops.filterMap fun
    | .load addr => some addr
    | .store addr _ => some addr
    | _ => none

def metaCalls (ops : List MemOp) : List Nat :=
  ops.filterMap fun
    | .getPteMeta addr _ => some addr
    | .setPteMeta addr _ _ => some addr
    | _ => none

/-- Addresses of `count` consecutive words. -/
def wordsFrom (buf count : Nat) : List Nat := (List.range count).map fun i => buf + 8 * i

@[simp] theorem words_from_length (buf count : Nat) : (wordsFrom buf count).length = count := by
  simp [wordsFrom]

theorem mem_words_from (buf count addr : Nat) :
    addr ∈ wordsFrom buf count ↔ ∃ i < count, addr = buf + 8 * i := by
  simp [wordsFrom, eq_comm]

@[simp] theorem accessed_append (left right : List MemOp) :
    accessed (left ++ right) = accessed left ++ accessed right :=
  List.filterMap_append

@[simp] theorem meta_calls_append (left right : List MemOp) :
    metaCalls (left ++ right) = metaCalls left ++ metaCalls right :=
  List.filterMap_append

@[simp] theorem accessed_load (addr : Nat) : accessed [.load addr] = [addr] := rfl
@[simp] theorem accessed_store (addr value : Nat) : accessed [.store addr value] = [addr] := rfl
@[simp] theorem meta_calls_load (addr : Nat) : metaCalls [.load addr] = [] := rfl
@[simp] theorem meta_calls_store (addr value : Nat) : metaCalls [.store addr value] = [] := rfl

@[simp] theorem accessed_pte_meta_read (st : MemoryState) (addr : Nat) :
    accessed (pteMetaRead st addr) = [] := by
  unfold pteMetaRead
  repeat' split
  all_goals rfl

@[simp] theorem accessed_pte_meta_write (st : MemoryState) (malloced : Option (Nat → UInt8))
    (addr value : Nat) : accessed (pteMetaWrite st malloced addr value) = [] := by
  unfold pteMetaWrite
  split
  · split
    · rfl
    · cases setPteMetaStructured malloced 1 0x1234 (some (encode 8 value)) 8 <;> rfl
  · rfl

theorem meta_calls_pte_meta_read (st : MemoryState) (addr : Nat) :
    metaCalls (pteMetaRead st addr) = if st.pteMetaEnabled then [addr] else [] := by
  unfold pteMetaRead
  repeat' split
  all_goals rfl

/-- A metadata write passes its own address or, without memory, none. -/
theorem mem_meta_calls_pte_meta_write (st : MemoryState) (malloced : Option (Nat → UInt8))
    (addr value other : Nat) (member : other ∈ metaCalls (pteMetaWrite st malloced addr value)) :
    other = addr ∧ st.pteMetaEnabled = true := by
  unfold pteMetaWrite at member
  split at member
  · rename_i enabled
    split at member
    · simpa [metaCalls, enabled] using member
    · cases built : setPteMetaStructured malloced 1 0x1234 (some (encode 8 value)) 8 with
      | none => simp [built, metaCalls] at member
      | some bytes => simpa [built, metaCalls, enabled] using member
  · simp [metaCalls] at member

theorem meta_calls_pte_meta_write (st : MemoryState) (block : Nat → UInt8) (addr value : Nat)
    (enabled : st.pteMetaEnabled = true) :
    metaCalls (pteMetaWrite st (some block) addr value) = [addr] := by
  unfold pteMetaWrite
  rw [if_pos enabled]
  split
  · rfl
  · rfl

theorem accessed_flat_map (indices : List Nat) (turn : Nat → List MemOp) :
    accessed (indices.flatMap turn) = indices.flatMap fun i => accessed (turn i) := by
  induction indices with
  | nil => rfl
  | cons i rest ih => simp [List.flatMap_cons, ih]

theorem meta_calls_flat_map (indices : List Nat) (turn : Nat → List MemOp) :
    metaCalls (indices.flatMap turn) = indices.flatMap fun i => metaCalls (turn i) := by
  induction indices with
  | nil => rfl
  | cons i rest ih => simp [List.flatMap_cons, ih]

theorem flat_map_singleton (indices : List Nat) (item : Nat → Nat) :
    (indices.flatMap fun i => [item i]) = indices.map item := by
  induction indices with
  | nil => rfl
  | cons i rest ih => simp [List.flatMap_cons, ih]

theorem seq_walk_accessed (count buf : Nat) (turn : Nat → Nat → List MemOp)
    (one : ∀ i addr, accessed (turn i addr) = [addr]) :
    accessed (seqWalk count buf turn) = wordsFrom buf count := by
  rw [seqWalk, accessed_flat_map]
  simp only [one, flat_map_singleton, wordsFrom]

theorem rnd_walk_accessed (st : MemoryState) (inputs : EventInputs) (tid : Nat)
    (turn : Nat → Nat → List MemOp) (one : ∀ i addr, accessed (turn i addr) = [addr]) :
    accessed (rndWalk st inputs tid turn) = (List.range (st.maxOffset + 1)).map fun i =>
      st.buffer tid + 8 * inputs.sbRandDefault i 0 (st.maxOffset % 2 ^ 32) := by
  rw [rndWalk, accessed_flat_map]
  simp only [one, flat_map_singleton]

/-- A sequential read or write event stops one word before the end of the block. -/
theorem seq_event_accessed (st : MemoryState) (inputs : EventInputs) (tid : Nat)
    (moves : st.oper ≠ .none) (sequential : st.accessRnd = false) :
    accessed (executeEvent st inputs tid) = wordsFrom (st.buffer tid) st.maxOffset := by
  cases operation : st.oper with
  | none => exact absurd operation moves
  | read =>
      simp only [executeEvent, operation, sequential, eventSeqRead]
      exact seq_walk_accessed _ _ _ (by simp)
  | write =>
      simp only [executeEvent, operation, sequential, eventSeqWrite]
      exact seq_walk_accessed _ _ _ (by simp)

theorem rnd_event_accessed (st : MemoryState) (inputs : EventInputs) (tid : Nat)
    (moves : st.oper ≠ .none) (random : st.accessRnd = true) :
    accessed (executeEvent st inputs tid) = (List.range (st.maxOffset + 1)).map fun i =>
      st.buffer tid + 8 * inputs.sbRandDefault i 0 (st.maxOffset % 2 ^ 32) := by
  cases operation : st.oper with
  | none => exact absurd operation moves
  | read =>
      simp only [executeEvent, operation, random, eventRndRead]
      exact rnd_walk_accessed _ _ _ _ (by simp)
  | write =>
      simp only [executeEvent, operation, random, eventRndWrite]
      exact rnd_walk_accessed _ _ _ _ (by simp)
end Touched

/-! The report counts `events * B` bytes, as if every event moved one whole
block. -/
section Report

/-- A block of accepted size is a whole number of words. -/
theorem block_in_words (block : BlockSize) : 8 * (block.bytes / 8) = block.bytes := by
  have positive : block.bytes ≠ 0 := by have := block.wordSized; omega
  -- a power of two from 8 on is a multiple of 8
  obtain ⟨k, power⟩ := (Nat.and_sub_one_eq_zero_iff_isPowerOfTwo positive).mp block.onePower
  have large : 3 ≤ k := by
    have wordSized := block.wordSized
    rw [power] at wordSized
    exact (Nat.pow_le_pow_iff_right (by omega : 1 < 2)).mp wordSized
  have divides : 8 ∣ block.bytes := by
    rw [power]
    exact Nat.pow_dvd_pow 2 large
  exact Nat.mul_div_cancel' divides

theorem max_offset_succ (block : BlockSize) : block.maxOffset + 1 = block.bytes / 8 := by
  have words : 1 ≤ block.bytes / 8 := by have := block.wordSized; omega
  unfold BlockSize.maxOffset
  omega

/-- An event in a run: the thread that executes it and what it takes from outside. -/
structure Event where
  tid : Nat
  inputs : EventInputs

def bytesAccessed (st : MemoryState) (run : List Event) : Nat :=
  (run.map fun event => 8 * (accessed (executeEvent st event.inputs event.tid)).length).sum

/-- The `MiB transferred` figure of `memory_report_cumulative`. The product
`stat->events * memory_block_size` is taken in `uint64_t`. -/
def memoryReportCumulative (st : MemoryState) (events : Nat) : Option ℚ :=
  if st.oper = .none then none
  else some ((events * st.blockSize.bytes % 2 ^ 64 : Nat) / (1024 * 1024))

def SeqContract (st : MemoryState) (inputs : EventInputs) (tid : Nat) : Prop :=
  let words := wordsFrom (st.buffer tid) (st.blockSize.bytes / 8)
  (accessed (executeEvent st inputs tid)).Perm words ∧
    (st.pteMetaEnabled = true → (metaCalls (executeEvent st inputs tid)).Perm words)

def RndContract (st : MemoryState) (inputs : EventInputs) (tid : Nat) : Prop :=
  (accessed (executeEvent st inputs tid)).length = st.blockSize.bytes / 8 ∧
    ∀ addr ∈ accessed (executeEvent st inputs tid),
      addr ∈ wordsFrom (st.buffer tid) (st.blockSize.bytes / 8)

def EventContract (st : MemoryState) (inputs : EventInputs) (tid : Nat) : Prop :=
  if st.accessRnd then RndContract st inputs tid else SeqContract st inputs tid

theorem seq_contract_fails (st : MemoryState) (inputs : EventInputs) (tid : Nat)
    (moves : st.oper ≠ .none) (sequential : st.accessRnd = false) :
    ¬ EventContract st inputs tid := by
  intro contract
  simp only [EventContract, sequential, Bool.false_eq_true, ↓reduceIte] at contract
  -- the lengths differ by the last word
  have sameLength := contract.1.length_eq
  rw [seq_event_accessed st inputs tid moves sequential, words_from_length, words_from_length,
    ← max_offset_succ] at sameLength
  exact Nat.ne_of_lt (Nat.lt_succ_self _) sameLength

theorem rnd_contract_iff (st : MemoryState) (inputs : EventInputs) (tid : Nat)
    (moves : st.oper ≠ .none) (random : st.accessRnd = true) :
    EventContract st inputs tid ↔ ∀ i < st.blockSize.bytes / 8,
      inputs.sbRandDefault i 0 (st.maxOffset % 2 ^ 32) < st.blockSize.bytes / 8 := by
  have turns : st.maxOffset + 1 = st.blockSize.bytes / 8 := max_offset_succ st.blockSize
  simp only [EventContract, random, ↓reduceIte, RndContract,
    rnd_event_accessed st inputs tid moves random, turns, List.length_map, List.length_range,
    true_and]
  constructor
  · intro inside i bound
    obtain ⟨word, wordBound, same⟩ := (mem_words_from _ _ _).mp
      (inside _ (List.mem_map.mpr ⟨i, List.mem_range.mpr bound, rfl⟩))
    omega
  · intro drawn addr member
    obtain ⟨i, bound, same⟩ := List.mem_map.mp member
    exact (mem_words_from _ _ _).mpr ⟨_, drawn i (List.mem_range.mp bound), same.symm⟩

/-- Every random event moves one block, whatever it draws. -/
theorem rnd_run_bytes (st : MemoryState) (run : List Event) (moves : st.oper ≠ .none)
    (random : st.accessRnd = true) : bytesAccessed st run = run.length * st.blockSize.bytes := by
  induction run with
  | nil => simp [bytesAccessed]
  | cons event rest ih =>
      have turns : st.maxOffset + 1 = st.blockSize.bytes / 8 := max_offset_succ st.blockSize
      have head : 8 * (accessed (executeEvent st event.inputs event.tid)).length =
          st.blockSize.bytes := by
        rw [rnd_event_accessed st event.inputs event.tid moves random, List.length_map,
          List.length_range, turns, block_in_words]
      simp only [bytesAccessed, List.map_cons, List.sum_cons, head, List.length_cons] at ih ⊢
      rw [ih, Nat.succ_mul, Nat.add_comm]

theorem report_exact_iff (st : MemoryState) (events bytes : Nat) (moves : st.oper ≠ .none) :
    memoryReportCumulative st events = some ((bytes : ℚ) / (1024 * 1024)) ↔
      events * st.blockSize.bytes % 2 ^ 64 = bytes := by
  rw [memoryReportCumulative, if_neg moves, Option.some.injEq]
  constructor
  · intro same
    field_simp at same
    exact_mod_cast same
  · intro same
    rw [same]

/-- With the default `--rand-type=uniform` every drawn offset is inside the block. -/
theorem uniform_offsets_inside (st : MemoryState) (raw : Nat → UInt64) (i : Nat) :
    SbRand.sbRandUniform (raw i) 0 (st.maxOffset % 2 ^ 32) < st.blockSize.bytes / 8 := by
  have turns : st.maxOffset + 1 = st.blockSize.bytes / 8 := max_offset_succ st.blockSize
  have drawn := SbRand.uniform_from_zero_le (raw i) (st.maxOffset % 2 ^ 32)
    (Nat.mod_lt _ (by decide))
  have reduced := Nat.mod_le st.maxOffset (2 ^ 32)
  omega

/-- An event keeps its contract, and the transfer figure of a run is the bytes
it accessed, exactly in random mode (with offsets drawn from the block, and a
byte count that `uint64_t` holds). -/
theorem event_contract_iff (st : MemoryState) (inputs : EventInputs) (tid : Nat)
    (run : List Event) (moves : st.oper ≠ .none) :
    (EventContract st inputs tid ∧ memoryReportCumulative st run.length =
      some ((bytesAccessed st run : ℚ) / (1024 * 1024))) ↔
    st.accessRnd = true ∧
      (∀ i < st.blockSize.bytes / 8,
        inputs.sbRandDefault i 0 (st.maxOffset % 2 ^ 32) < st.blockSize.bytes / 8) ∧
      run.length * st.blockSize.bytes < 2 ^ 64 := by
  cases mode : st.accessRnd with
  | false =>
      constructor
      · intro both
        exact absurd both.1 (seq_contract_fails st inputs tid moves mode)
      · intro both
        exact absurd both.1 Bool.false_ne_true
  | true =>
      rw [rnd_contract_iff st inputs tid moves mode, report_exact_iff st _ _ moves,
        rnd_run_bytes st run moves mode]
      constructor
      · rintro ⟨drawn, exactly⟩
        exact ⟨rfl, drawn, exactly ▸ Nat.mod_lt _ (by decide)⟩
      · rintro ⟨_, drawn, fits⟩
        exact ⟨drawn, Nat.mod_eq_of_lt fits⟩

/-- `--memory-block-size=1K --memory-oper=write --memory-pte-meta=on`, one thread. -/
def defaultOptions (accessMode : String) : MemoryOptions :=
  { blockSize := 1024, blockSizeText := "1K", totalSize := 100 * 2 ^ 30, scope := "global",
    pteMeta := true, pteMetaType := 0, oper := "write", accessMode := accessMode }

def onePageAt (addr : Nat) : Allocations := { block := fun _ => some addr, threadArrays := true }

def lowestOffset : EventInputs := { sbRandDefault := fun _ a _ => a, malloced := fun _ => none }

/-- The state `memory_init` leaves for these options. -/
def defaultState (accessRnd : Bool) : MemoryState :=
  { blockSize := ⟨1024, by decide, by decide, by decide⟩, totalSize := 100 * 2 ^ 30
    scope := .global, pteMetaEnabled := true, pteMetaType := 0, oper := .write
    accessRnd := accessRnd, buffers := [0x10000], threadCounters := [100 * 2 ^ 20]
    enableCalls := [0x10000] }

theorem event_contract_iff_default :
    (defaultState true).oper ≠ .none ∧
    ((EventContract (defaultState true) lowestOffset 0 ∧
      memoryReportCumulative (defaultState true) 1 =
        some ((bytesAccessed (defaultState true) [⟨0, lowestOffset⟩] : ℚ) / (1024 * 1024))) ↔
      (defaultState true).accessRnd = true ∧
      (∀ i < 128, lowestOffset.sbRandDefault i 0 ((defaultState true).maxOffset % 2 ^ 32) < 128) ∧
      1 * 1024 < 2 ^ 64) :=
  ⟨by decide, event_contract_iff (defaultState true) lowestOffset 0 [⟨0, lowestOffset⟩] (by decide)⟩

/-- A sequential write event over a block of 128 words stores 127 of them. -/
theorem seq_write_misses_last_word :
    memoryInit (defaultOptions "seq") 1 (onePageAt 0x10000) = .ok (defaultState false) ∧
      ¬ EventContract (defaultState false) lowestOffset 0 := by
  constructor
  · rfl
  · exact seq_contract_fails (defaultState false) lowestOffset 0 (by decide) rfl
end Report
end PteSysbench.MemoryWalk
