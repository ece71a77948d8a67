import PteSysbench.ActionSystem
import PteSysbench.CreateFiles
import PteSysbench.HeldItems
import PteSysbench.SbRand
import Mathlib.Data.Rat.Floor

/-!
The retry loop of `file_get_rnd_request` in validation mode. A thread draws again while
another thread's record names the block it has drawn, and the records are only replaced,
never cleared: with more threads than blocks some thread comes to draw for ever.
-/

namespace PteSysbench.RandomBlocks

open ActionSystem FileRequests HeldItems SbRand

/-! Draws are mantissas of 52 bits. -/
section Draws

/-- `sb_rand_uniform_double` of the raw number `x`. -/
def drawOf (x : UInt64) : Draw :=
  { value := sbRandUniformDouble x / 2 ^ 52, nonneg := by positivity
    below := by
      rw [div_lt_one (by positivity)]
      exact_mod_cast uniform_double_lt x }

/-- The block start of the mantissa `k`. -/
def blockStart (sizes : FileSizes) (k : Nat) : Nat :=
  let raw := k * sizes.totalSize / 2 ^ 52
  raw - raw % sizes.blockSize

theorem tmppos_drawn (sizes : FileSizes) (x : UInt64) :
    tmppos sizes (drawOf x) = blockStart sizes (sbRandUniformDouble x) := by
  have scaled : ((drawOf x).value * sizes.totalSize : ℚ) =
      ((sbRandUniformDouble x * sizes.totalSize : Nat) : ℚ) / ((2 ^ 52 : Nat) : ℚ) := by
    simp only [drawOf]
    push_cast
    ring
  have floor : ((drawOf x).value * sizes.totalSize).floor.toNat =
      sbRandUniformDouble x * sizes.totalSize / 2 ^ 52 := by
    have whole := Rat.floor_natCast_div_natCast (sbRandUniformDouble x * sizes.totalSize) (2 ^ 52)
    rw [scaled, ← Int.toNat_natCast (_ / _), Int.natCast_div, ← whole]
    rfl
  simp only [tmppos, floor, blockStart]

/-- `file_id` and `pos` of the request for a block start. -/
def blockAt (sizes : FileSizes) (start : Nat) : Nat × Int :=
  (start / sizes.fileSize % 2 ^ 32, (start % sizes.fileSize : Nat))

/-- All pairs that the generator can produce. -/
def drawnBlocks (sizes : FileSizes) : Finset (Nat × Int) :=
  if sizes.fileSize = 0 then ∅
  else (Finset.range (2 ^ 52)).image fun k => blockAt sizes (blockStart sizes k)

theorem mem_drawn_blocks (sizes : FileSizes) (operation : FileOp) (block : Nat × Int) :
    block ∈ drawnBlocks sizes ↔ ∃ x request,
      drawnRequest sizes operation (drawOf x) = some request ∧
        (request.fileId, request.pos) = block := by
  unfold drawnBlocks drawnRequest
  by_cases none_ : sizes.fileSize = 0
  · simp [none_]
  · simp only [if_neg none_, Finset.mem_image, Finset.mem_range, Option.some.injEq,
      exists_eq_left', tmppos_drawn, blockAt]
    constructor
    · rintro ⟨k, mantissa, rfl⟩
      obtain ⟨x, drawn⟩ := uniform_double_drawn k mantissa
      exact ⟨x, by rw [drawn]⟩
    · rintro ⟨x, rfl⟩
      exact ⟨_, uniform_double_lt x, rfl⟩

end Draws

/-! Runs of the generator. -/
section Runs
variable (cfg : FileConfig)

/-- A call, with the raw numbers of its draws. -/
structure Call where
  tid : Nat
  reads : Nat
  writes : Nat
  raws : List UInt64

def step (st : GeneratorState) (call : Call) : Option GeneratorState :=
  if call.tid < cfg.threads then
    match fileGetRndRequest cfg st call.tid call.reads call.writes (call.raws.map drawOf) with
    | .request _ after => some after
    | .divisionByZero | .retrying => none
  else none

/-- Some draw takes the thread out of the retry loop. -/
def LoopExits (st : GeneratorState) (tid : Nat) (operation : FileOp) : Prop :=
  ∃ x request after, dataRequest cfg st tid operation [drawOf x] = .request request after

/-- Whatever `malloc` has left in the records and whatever has been requested since. -/
def AlwaysExits (perThread : Nat → Nat × Int) : Prop :=
  ∀ st, Reaches (step cfg) (initVars perThread) st →
    ∀ tid < cfg.threads, ∀ operation, LoopExits cfg st tid operation

end Runs

/-! The loop exits where a block is left. -/
section Exit
variable {cfg : FileConfig}

theorem in_use_iff (validating : cfg.validate = true) (st : GeneratorState) (tid : Nat)
    (request : FileRequest) :
    inUse cfg st tid request = true ↔
      HeldByOther st.perThread cfg.threads tid (request.fileId, request.pos) := by
  simp [inUse, validating, HeldByOther]

theorem loop_exits_iff (validating : cfg.validate = true) (st : GeneratorState) (tid : Nat)
    (operation : FileOp) :
    LoopExits cfg st tid operation ↔
      ∃ block ∈ drawnBlocks cfg.sizes, ¬ HeldByOther st.perThread cfg.threads tid block := by
  constructor
  · rintro ⟨x, request, after, made⟩
    cases drawn : drawnRequest cfg.sizes operation (drawOf x) with
    | none => simp [dataRequest, drawn] at made
    | some here =>
        refine ⟨_, (mem_drawn_blocks _ operation _).mpr ⟨x, here, drawn, rfl⟩, ?_⟩
        rw [← in_use_iff validating]
        intro used
        simp [dataRequest, drawn, used] at made
  · rintro ⟨block, listed, free⟩
    obtain ⟨x, request, drawn, rfl⟩ := (mem_drawn_blocks _ operation _).mp listed
    rw [← in_use_iff validating, Bool.not_eq_true] at free
    exact ⟨x, request, _, data_request_free cfg st tid operation _ [] request drawn free⟩

end Exit

/-! With fewer blocks than threads the records come to cover all blocks. -/
section Hang
variable {cfg : FileConfig}

/-- The next request is one of a round of fsyncs. -/
def RoundDue (cfg : FileConfig) (st : GeneratorState) : Prop :=
  cfg.fsyncFreq ≠ 0 ∧ st.isDirty ∧ st.reqPerformed % cfg.fsyncFreq = 0

/-- The fsync requests of a round come to an end, and leave the records alone. -/
theorem fsync_round_ends (tid : Nat) (among : tid < cfg.threads) (st : GeneratorState)
    (within : st.fsyncedFile < cfg.sizes.numFiles) :
    ∃ later, Reaches (step cfg) st later ∧ ¬ RoundDue cfg later ∧
      later.perThread = st.perThread ∧ later.fsyncedFile < cfg.sizes.numFiles := by
  -- on the files left in the round
  induction left : cfg.sizes.numFiles - st.fsyncedFile using Nat.strongRecOn generalizing st with
  | ind left ih =>
      by_cases due : RoundDue cfg st
      · have taken : step cfg st ⟨tid, 0, 0, []⟩ = some (fsyncRequest cfg st).2 := by
          unfold RoundDue at due
          rw [step, if_pos among, fileGetRndRequest, if_pos due]
        have files := cfg.sizes.filesUnsigned
        have next : (st.fsyncedFile + 1) % 2 ^ 32 = st.fsyncedFile + 1 :=
          Nat.mod_eq_of_lt (by omega)
        by_cases last : st.fsyncedFile + 1 = cfg.sizes.numFiles
        · refine ⟨_, reaches_step _ taken, ?_, ?_, ?_⟩
          all_goals simp only [RoundDue, fsyncRequest, next, if_pos last]
          · simp
          · exact cfg.sizes.someFiles
        · have moved : (fsyncRequest cfg st).2 = { st with fsyncedFile := st.fsyncedFile + 1 } := by
            simp only [fsyncRequest, next, if_neg last]
          obtain ⟨later, reached, rest⟩ := ih (cfg.sizes.numFiles - (st.fsyncedFile + 1)) (by omega)
            { st with fsyncedFile := st.fsyncedFile + 1 } (by simp only; omega) rfl
          exact ⟨later, reaches_trans (reaches_step _ (moved ▸ taken)) reached, rest⟩
      · exact ⟨st, ⟨[], rfl⟩, due, rfl, within⟩

/-- A thread takes a block that no other thread has recorded. -/
theorem block_taken (validating : cfg.validate = true) (st : GeneratorState) (tid : Nat)
    (among : tid < cfg.threads) (notDue : ¬ RoundDue cfg st) (block : Nat × Int)
    (listed : block ∈ drawnBlocks cfg.sizes)
    (free : ¬ HeldByOther st.perThread cfg.threads tid block) :
    ∃ after, Reaches (step cfg) st after ∧
      after.perThread = Function.update st.perThread tid block ∧
      after.fsyncedFile = st.fsyncedFile := by
  obtain ⟨x, request, drawn, rfl⟩ :=
    (mem_drawn_blocks _ (rndOperation cfg 0 0) _).mp listed
  rw [← in_use_iff validating, Bool.not_eq_true] at free
  have made := data_request_free cfg st tid _ _ [] request drawn free
  refine ⟨afterData st tid (rndOperation cfg 0 0) request, ?_, ?_, rfl⟩
  · apply reaches_step ⟨tid, 0, 0, [x]⟩
    unfold RoundDue at notDue
    rw [step, if_pos among, fileGetRndRequest, if_neg notDue, List.map_singleton, made]
  · funext i
    simp only [afterData, Function.update_apply]

/-- While a block is recorded by no thread, a thread whose record is not missed takes it. -/
theorem records_cover (validating : cfg.validate = true)
    (few : (drawnBlocks cfg.sizes).card < cfg.threads) (st : GeneratorState)
    (within : st.fsyncedFile < cfg.sizes.numFiles) :
    ∃ after, Reaches (step cfg) st after ∧
      unheld after.perThread cfg.threads (drawnBlocks cfg.sizes) = ∅ := by
  induction left : (unheld st.perThread cfg.threads (drawnBlocks cfg.sizes)).card
    using Nat.strongRecOn generalizing st with
  | ind left ih =>
      rcases Finset.eq_empty_or_nonempty (unheld st.perThread cfg.threads (drawnBlocks cfg.sizes))
        with none_ | ⟨block, free⟩
      · exact ⟨st, ⟨[], rfl⟩, none_⟩
      · obtain ⟨tid, among, idle⟩ := idle_party st.perThread few
        obtain ⟨ready, waited, notDue, same, inside⟩ := fsync_round_ends tid among st within
        obtain ⟨listed, nobody⟩ := mem_unheld.mp free
        obtain ⟨taken, moved, records, fsynced⟩ :=
          block_taken validating ready tid among notDue block listed
            (by rw [same]; exact fun ⟨other, amongToo, _, held⟩ => nobody other amongToo held)
        have falls := unheld_falls among idle free
        rw [← same, ← records] at falls
        obtain ⟨after, reached, covered⟩ := ih _ (left ▸ same ▸ falls) taken (fsynced ▸ inside) rfl
        exact ⟨after, reaches_trans waited (reaches_trans moved reached), covered⟩

/-- Some thread then finds every block recorded by the others. -/
theorem hang_reached (validating : cfg.validate = true)
    (few : (drawnBlocks cfg.sizes).card < cfg.threads) (perThread : Nat → Nat × Int) :
    ¬ AlwaysExits cfg perThread := by
  intro exits
  obtain ⟨st, reached, covered⟩ :=
    records_cover validating few (initVars perThread) cfg.sizes.someFiles
  obtain ⟨tid, among, idle⟩ := idle_party st.perThread few
  obtain ⟨block, listed, free⟩ :=
    (loop_exits_iff validating st tid .read).mp (exits st reached tid among .read)
  exact free (all_held_by_others idle covered block listed)

end Hang

/-! Up to 2^52 bytes every block is drawn. -/
section Count
variable (sizes : FileSizes)

def blockCount : Nat := (sizes.totalSize + sizes.blockSize - 1) / sizes.blockSize

theorem lt_block_count (j : Nat) :
    j < blockCount sizes ↔ j * sizes.blockSize < sizes.totalSize := by
  have positive := sizes.someBlock
  have total := sizes.someBytes
  rw [blockCount, Nat.lt_div_iff_mul_lt positive]
  omega

theorem block_start_index (k : Nat) :
    blockStart sizes k = k * sizes.totalSize / 2 ^ 52 / sizes.blockSize * sizes.blockSize := by
  simp only [blockStart]
  generalize k * sizes.totalSize / 2 ^ 52 = raw
  have whole := Nat.div_add_mod' raw sizes.blockSize
  omega

theorem block_start_drawn (fine : sizes.totalSize ≤ 2 ^ 52) (start : Nat) :
    (∃ k < 2 ^ 52, blockStart sizes k = start) ↔
      ∃ j < blockCount sizes, j * sizes.blockSize = start := by
  constructor
  · rintro ⟨k, mantissa, rfl⟩
    refine ⟨k * sizes.totalSize / 2 ^ 52 / sizes.blockSize, ?_, (block_start_index sizes k).symm⟩
    rw [lt_block_count, ← block_start_index]
    have raw : k * sizes.totalSize / 2 ^ 52 < sizes.totalSize := by
      rw [Nat.div_lt_iff_lt_mul (by decide), Nat.mul_comm]
      exact Nat.mul_lt_mul_of_pos_left mantissa sizes.someBytes
    exact Nat.lt_of_le_of_lt (Nat.sub_le _ _) raw
  · rintro ⟨j, below, rfl⟩
    obtain ⟨x, drawn⟩ := scaled_draw_every sizes.totalSize (j * sizes.blockSize) fine
      ((lt_block_count sizes j).mp below)
    refine ⟨_, uniform_double_lt x, ?_⟩
    rw [block_start_index, drawn, Nat.mul_div_cancel _ sizes.someBlock]

/-- The pair of a block names it, unless `file_id` is cut. -/
theorem block_at_start (named : sizes.totalSize / sizes.fileSize < 2 ^ 32) (start other : Nat)
    (inside : start < sizes.totalSize) (otherInside : other < sizes.totalSize)
    (same : blockAt sizes start = blockAt sizes other) : start = other := by
  have id (s : Nat) (below : s < sizes.totalSize) :
      s / sizes.fileSize % 2 ^ 32 = s / sizes.fileSize :=
    Nat.mod_eq_of_lt (Nat.lt_of_le_of_lt (Nat.div_le_div_right (Nat.le_of_lt below)) named)
  obtain ⟨file, pos⟩ := Prod.mk.inj same
  rw [id start inside, id other otherInside] at file
  rw [← Nat.div_add_mod start sizes.fileSize, file, Int.ofNat_inj.mp pos, Nat.div_add_mod]

theorem drawn_blocks_card (some_ : sizes.fileSize ≠ 0) (fine : sizes.totalSize ≤ 2 ^ 52)
    (named : sizes.totalSize / sizes.fileSize < 2 ^ 32) :
    (drawnBlocks sizes).card = blockCount sizes := by
  -- the blocks drawn are those that begin at a multiple of the block size
  have starts : drawnBlocks sizes =
      (Finset.range (blockCount sizes)).image fun j => blockAt sizes (j * sizes.blockSize) := by
    ext block
    simp only [drawnBlocks, if_neg some_, Finset.mem_image, Finset.mem_range]
    constructor
    · rintro ⟨k, mantissa, rfl⟩
      obtain ⟨j, below, same⟩ := (block_start_drawn sizes fine _).mp ⟨k, mantissa, rfl⟩
      exact ⟨j, below, by rw [same]⟩
    · rintro ⟨j, below, rfl⟩
      obtain ⟨k, mantissa, same⟩ := (block_start_drawn sizes fine _).mpr ⟨j, below, rfl⟩
      exact ⟨k, mantissa, by rw [same]⟩
  rw [starts, Finset.card_image_of_injOn, Finset.card_range]
  intro j below other otherBelow same
  have inside := (lt_block_count sizes j).mp (Finset.mem_range.mp below)
  have otherInside := (lt_block_count sizes other).mp (Finset.mem_range.mp otherBelow)
  exact Nat.eq_of_mul_eq_mul_right sizes.someBlock
    (block_at_start sizes named _ _ inside otherInside same)

end Count

/-! The condition on the options. -/
section Condition
variable {cfg : FileConfig}

/-- Whatever the records hold at first, the retry loop can always be left just when there are
at most as many threads as blocks. -/
theorem retry_loop_exits_iff {cmdname : String} {threads : Nat} {buffers : Bool}
    {opts : FileOptions}
    (accepted : parseArguments cmdname true threads buffers opts = .ok cfg)
    (perThread : Nat → Nat × Int) :
    (AlwaysExits cfg perThread ↔ threads ≤ (drawnBlocks cfg.sizes).card) ∧
      (cfg.fileSize ≠ 0 → cfg.sizes.totalSize ≤ 2 ^ 52 →
        cfg.sizes.totalSize / cfg.fileSize < 2 ^ 32 →
          (drawnBlocks cfg.sizes).card = blockCount cfg.sizes) := by
  have read := parse_arguments_read accepted
  rw [← read.threads]
  refine ⟨⟨fun exits => ?_, fun enough st _ tid among operation => ?_⟩,
    drawn_blocks_card cfg.sizes⟩
  · exact Nat.not_lt.mp fun few => hang_reached read.validate few perThread exits
  · rw [loop_exits_iff read.validate]
    exact other_item st.perThread enough among

/-- `--file-num=1 --file-total-size=16384 --file-test-mode=rndwr --validate`. -/
def oneBlockOptions : FileOptions :=
  { tailOptions with
    fileNum := 1, totalSize := 16384, blockSize := 16384, testMode := some "rndwr" }

def oneBlockConfig (threads : Nat) : FileConfig :=
  { tailConfig with
    sizes := CreateFiles.oneBlock, testMode := .rndWrite, requestSize := 16384
    validate := true, threads := threads }

theorem one_thread_exits : AlwaysExits (oneBlockConfig 1) fun _ => (0, -1) := by
  have accepted : parseArguments "run" true 1 true oneBlockOptions = .ok (oneBlockConfig 1) := by
    decide +kernel
  obtain ⟨exits, count⟩ := retry_loop_exits_iff accepted fun _ => (0, -1)
  rw [exits, count (by decide) (by decide) (by decide)]
  decide

/-- Two threads and one block: the second thread draws for ever. -/
theorem second_thread_hangs :
    parseArguments "run" true 2 true oneBlockOptions = .ok (oneBlockConfig 2) ∧
      ¬ AlwaysExits (oneBlockConfig 2) fun _ => (0, -1) := by
  refine ⟨by decide +kernel, hang_reached rfl ?_ _⟩
  rw [drawn_blocks_card _ (by decide) (by decide) (by decide)]
  decide

end Condition

end PteSysbench.RandomBlocks
