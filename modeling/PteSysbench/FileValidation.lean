import PteSysbench.ByteBuffer
import PteSysbench.FileRequests
import PteSysbench.LittleEndian
import Mathlib.Tactic.Positivity

/-!
`--validate` in sb_fileio.c with `--file-io-mode=sync`: what `create_files` and
the executed requests leave in the files, and what `file_validate_buffer` makes
of a block read back. The CRC is any function of the bytes; a fill or check of
fewer than 12 bytes, where `len - 12` wraps around, has no outcome.
-/

namespace PteSysbench.FileValidation

open ActionSystem ByteBuffer FileRequests LittleEndian

/-- `FILE_CHECKSUM_LENGTH + FILE_OFFSET_LENGTH`. -/
def trailerLength : Nat := 12

abbrev Checksum := List UInt8 → UInt32

/-! Blocks. -/
section Blocks

def fileFillBuffer (crc32 : Checksum) (random : Nat → UInt8) (len offset : Nat) :
    Option (List UInt8) :=
  if len < trailerLength then none
  else
    let body := (List.range (len - trailerLength)).map random
    some (body ++ (encode 4 (crc32 body).toNat ++ encode 8 offset))

/-- True when the C function returns 0. -/
def fileValidateBuffer (crc32 : Checksum) (buf : List UInt8) (offset : Nat) : Option Bool :=
  if buf.length < trailerLength then none
  else
    let csOffset := buf.length - trailerLength
    let checksum := (crc32 (buf.take csOffset)).toNat
    some (decide (checksum = decode ((buf.drop csOffset).take 4) ∧
      offset = decode ((buf.drop (csOffset + 4)).take 8)))

theorem fill_length (crc32 : Checksum) (random : Nat → UInt8) (len offset : Nat)
    (block : List UInt8) (filled : fileFillBuffer crc32 random len offset = some block) :
    block.length = len := by
  unfold fileFillBuffer at filled
  split at filled
  · cases filled
  · cases filled
    simp only [List.length_append, List.length_map, List.length_range, encode_length]
    unfold trailerLength at *
    omega

/-- A filled block passes the check at its own offset. -/
theorem filled_block_validates (crc32 : Checksum) (random : Nat → UInt8) (len offset : Nat)
    (block : List UInt8) (offsetBound : offset < 2 ^ 64)
    (filled : fileFillBuffer crc32 random len offset = some block) :
    fileValidateBuffer crc32 block offset = some true := by
  have length := fill_length crc32 random len offset block filled
  unfold fileFillBuffer at filled
  split at filled
  · cases filled
  · rename_i enough
    unfold fileValidateBuffer
    rw [length, if_neg enough]
    have same := Option.some.inj filled
    generalize body : (List.range (len - trailerLength)).map random = bytes at same
    have bodyLength : bytes.length = len - trailerLength := by
      rw [← body, List.length_map, List.length_range]
    have checksumBound : (crc32 bytes).toNat < 256 ^ 4 := (crc32 bytes).toNat_lt
    have offsetStart : len - trailerLength + 4 =
        bytes.length + (encode 4 (crc32 bytes).toNat).length := by
      rw [bodyLength, encode_length]
    simp only [← same, offsetStart]
    rw [← bodyLength, List.take_left, List.drop_left, List.take_append_of_le_length (by simp),
      List.take_of_length_le (by simp), ← List.drop_drop, List.drop_left, List.drop_left,
      List.take_of_length_le (by simp), decode_encode_of_lt 4 _ checksumBound,
      decode_encode_of_lt 8 _ offsetBound]
    simp

/-- A block that passes ends in its own offset. -/
theorem validated_offset (crc32 : Checksum) (buf : List UInt8) (offset : Nat)
    (passes : fileValidateBuffer crc32 buf offset = some true) :
    offset = decode ((buf.drop (buf.length - 8)).take 8) := by
  unfold fileValidateBuffer at passes
  split at passes
  · cases passes
  · rename_i enough
    have last : buf.length - trailerLength + 4 = buf.length - 8 := by
      unfold trailerLength at *
      omega
    have both := of_decide_eq_true (Option.some.inj passes)
    rw [last] at both
    exact both.2

/-- Of the ranges of one end, at most one passes. -/
theorem same_end_same_start (crc32 : Checksum) (data : Buffer) (start other len otherLen : Nat)
    (sameEnd : start + len = other + otherLen) (room : 8 ≤ len) (otherRoom : 8 ≤ otherLen)
    (passes : fileValidateBuffer crc32 (data.read start len) start = some true)
    (otherPasses : fileValidateBuffer crc32 (data.read other otherLen) other = some true) :
    start = other := by
  have stored := validated_offset crc32 _ _ passes
  have otherStored := validated_offset crc32 _ _ otherPasses
  rw [read_drop] at stored otherStored
  have length (from_ count : Nat) : (data.read from_ count).length = count := by
    simp [Buffer.read]
  rw [length] at stored otherStored
  -- two ranges of one end share the eight bytes of the stored offset
  have sameTrailer : start + (len - 8) = other + (otherLen - 8) := by omega
  rw [stored, otherStored, sameTrailer, Nat.sub_sub_self room, Nat.sub_sub_self otherRoom]
end Blocks

/-! Files. -/
section Files

structure FileImage where
  length : Nat
  data : Buffer

def emptyFile : FileImage := { length := 0, data := allocated fun _ => 0 }

def FileImage.pwrite (image : FileImage) (bytes : List UInt8) (offset : Nat) : FileImage :=
  { length := max image.length (offset + bytes.length), data := image.data.write offset bytes }

/-- Up to the end of the file. -/
def FileImage.pread (image : FileImage) (count offset : Nat) : List UInt8 :=
  image.data.read offset (min count (image.length - offset))

/-- The bytes a write puts into the file; `random` is also the buffer's content
without `--validate`. -/
def writtenBytes (crc32 : Checksum) (cfg : FileConfig) (random : Nat → UInt8) (len offset : Nat) :
    Option (List UInt8) :=
  if cfg.validate then fileFillBuffer crc32 random len offset
  else some ((List.range len).map random)

/-- The first `count` turns of the loop of `create_files` on a new file. -/
def createFile (crc32 : Checksum) (cfg : FileConfig) (random : Nat → Nat → UInt8) :
    Nat → Option FileImage
  | 0 => some emptyFile
  | count + 1 => do
      let image ← createFile crc32 cfg random count
      let offset := count * cfg.sizes.blockSize
      let block ← writtenBytes crc32 cfg (random offset) cfg.sizes.blockSize offset
      some (image.pwrite block offset)

/-- Turns of `for (offset = 0; offset < file_size; offset += file_block_size)`. -/
def blockCount (sizes : FileSizes) : Nat :=
  (sizes.fileSize + sizes.blockSize - 1) / sizes.blockSize

/-- The first `count` files of `create_files`. -/
def createFiles (crc32 : Checksum) (cfg : FileConfig) (random : Nat → Nat → Nat → UInt8) :
    Nat → Option (List FileImage)
  | 0 => some []
  | count + 1 => do
      let files ← createFiles crc32 cfg random count
      let image ← createFile crc32 cfg (random count) (blockCount cfg.sizes)
      some (files ++ [image])

/-- `file_prepare` leaves the files as they are, and empty ones for seqwr. -/
def preparedFiles (cfg : FileConfig) (created : List FileImage) : List FileImage :=
  if cfg.testMode = .write then List.replicate cfg.sizes.numFiles emptyFile else created

structure RunState where
  generator : GeneratorState
  files : List FileImage
  /-- A READ failed, in `pread` or in its validation. -/
  alarm : Bool

/-- One event: its thread, the thread's counters, and the random numbers drawn. -/
structure FileAction where
  tid : Nat
  reads : Nat
  writes : Nat
  draws : List Draw
  random : Nat → UInt8

def readPasses (crc32 : Checksum) (cfg : FileConfig) (image : FileImage)
    (request : FileRequest) : Bool :=
  let buffer := image.pread request.size.toNat request.pos.toNat
  decide ((buffer.length : Int) = request.size) &&
    (!cfg.validate || (fileValidateBuffer crc32 buffer request.pos.toNat == some true))

/-- `files[num_files]`, which the check lets through, is no open file. -/
def fileExecuteEvent (crc32 : Checksum) (cfg : FileConfig) (s : RunState) (random : Nat → UInt8)
    (request : FileRequest) : Option RunState :=
  match requestTarget cfg request with
  | .error _ => some s
  | .ok i =>
      match request.operation with
      | .read => some { s with
          alarm := s.alarm || !((s.files[i]?).any fun image => readPasses crc32 cfg image request) }
      | .write =>
          (writtenBytes crc32 cfg random (request.size % 2 ^ 32).toNat request.pos.toNat).map
            fun bytes => { s with
              files := s.files.modify i fun image => image.pwrite bytes request.pos.toNat }
      | _ => some s

/-- One turn of a thread: the next event, executed at once. -/
def step (crc32 : Checksum) (cfg : FileConfig) (s : RunState) (a : FileAction) : Option RunState :=
  if cfg.ioMode ≠ .sync then none
  else
    match fileNextEvent cfg s.generator a.tid a.reads a.writes a.draws with
    | .request request after =>
        fileExecuteEvent crc32 cfg { s with generator := after } a.random request
    | .divisionByZero => none
    | .retrying => none

def started (cfg : FileConfig) (perThread : Nat → Nat × Int) (created : List FileImage) :
    RunState :=
  { generator := initVars perThread, files := preparedFiles cfg created, alarm := false }
end Files

/-! Every block of every file is one that validates. -/
section Layout

/-- A sequential read request is one block, and files are whole blocks; in random
tests the total is a whole number of blocks for each file. -/
def ReadsWholeBlocks (cfg : FileConfig) : Prop :=
  match cfg.testMode with
  | .write | .rewrite | .rndWrite => True
  | .read =>
      cfg.sizes.blockSize ∣ cfg.fileSize ∧ min cfg.requestSize cfg.fileSize = cfg.sizes.blockSize
  | .rndRead | .rndRw => cfg.sizes.numFiles * cfg.sizes.blockSize ∣ cfg.sizes.totalSize

/-- A mixed test of ratio 0 never reads. -/
def ReadsData (cfg : FileConfig) : Prop :=
  cfg.testMode = .read ∨ cfg.testMode = .rndRead ∨ (cfg.testMode = .rndRw ∧ 0 < cfg.rwRatio)

/-- A request of exactly one block of an existing file. -/
structure WholeBlock (cfg : FileConfig) (request : FileRequest) : Prop where
  file : request.fileId < cfg.sizes.numFiles
  block : ∃ k : Nat, request.pos = (k * cfg.sizes.blockSize : Nat) ∧
    (k + 1) * cfg.sizes.blockSize ≤ cfg.fileSize
  size : request.size = cfg.sizes.blockSize

structure FileValid (crc32 : Checksum) (cfg : FileConfig) (image : FileImage) : Prop where
  sized : cfg.fileSize ≤ image.length
  blocks : ∀ k : Nat, (k + 1) * cfg.sizes.blockSize ≤ cfg.fileSize →
    fileValidateBuffer crc32 (image.data.read (k * cfg.sizes.blockSize) cfg.sizes.blockSize)
      (k * cfg.sizes.blockSize) = some true

theorem blocks_apart (blockSize j k : Nat) (different : j ≠ k) :
    j * blockSize + blockSize ≤ k * blockSize ∨ k * blockSize + blockSize ≤ j * blockSize := by
  rcases Nat.lt_or_gt_of_ne different with before | after
  · left
    rw [← Nat.succ_mul]
    exact Nat.mul_le_mul_right _ before
  · right
    rw [← Nat.succ_mul]
    exact Nat.mul_le_mul_right _ after

theorem read_written_block (image : FileImage) (block : List UInt8) (offset : Nat) :
    (image.pwrite block offset).data.read offset block.length = block := by
  have same := read_write_inside image.data offset 0 block.length block (by omega)
  simpa [FileImage.pwrite] using same

theorem read_other_block (image : FileImage) (block : List UInt8) (j k : Nat)
    (different : j ≠ k) :
    (image.pwrite block (k * block.length)).data.read (j * block.length) block.length =
      image.data.read (j * block.length) block.length := by
  apply read_write_outside
  exact blocks_apart block.length j k different

/-- Writing block `k` as `file_fill_buffer` fills it keeps all blocks valid. -/
theorem write_block_valid (crc32 : Checksum) (cfg : FileConfig) (image : FileImage)
    (random : Nat → UInt8) (k : Nat) (block : List UInt8) (valid : FileValid crc32 cfg image)
    (inside : (k + 1) * cfg.sizes.blockSize ≤ cfg.fileSize)
    (filled : fileFillBuffer crc32 random cfg.sizes.blockSize (k * cfg.sizes.blockSize) =
      some block) :
    FileValid crc32 cfg (image.pwrite block (k * cfg.sizes.blockSize)) := by
  have length := fill_length crc32 random _ _ block filled
  have total := cfg.sizes.totalSigned
  have small : cfg.fileSize ≤ cfg.sizes.totalSize := Nat.div_le_self _ _
  constructor
  · exact Nat.le_trans valid.sized (Nat.le_max_left _ _)
  · intro j bound
    by_cases same : j = k
    · subst same
      have back := read_written_block image block (j * cfg.sizes.blockSize)
      rw [length] at back
      rw [back]
      have start : j * cfg.sizes.blockSize ≤ (j + 1) * cfg.sizes.blockSize :=
        Nat.mul_le_mul_right _ (Nat.le_succ j)
      exact filled_block_validates crc32 random _ _ block (by omega) filled
    · have other := read_other_block image block j k same
      rw [length] at other
      rw [other]
      exact valid.blocks j bound

theorem created_file_blocks (crc32 : Checksum) (cfg : FileConfig) (random : Nat → Nat → UInt8)
    (count : Nat) (image : FileImage) (validate : cfg.validate = true)
    (bound : count * cfg.sizes.blockSize < 2 ^ 64)
    (created : createFile crc32 cfg random count = some image) :
    image.length = count * cfg.sizes.blockSize ∧ ∀ k < count,
      fileValidateBuffer crc32 (image.data.read (k * cfg.sizes.blockSize) cfg.sizes.blockSize)
        (k * cfg.sizes.blockSize) = some true := by
  induction count generalizing image with
  | zero =>
      cases created
      simp [emptyFile]
  | succ count ih =>
      obtain ⟨before, earlier, created⟩ := Option.bind_eq_some_iff.mp created
      obtain ⟨block, written, created⟩ := Option.bind_eq_some_iff.mp created
      cases created
      rw [writtenBytes, if_pos validate] at written
      have length := fill_length crc32 _ _ _ block written
      have next : (count + 1) * cfg.sizes.blockSize =
          count * cfg.sizes.blockSize + cfg.sizes.blockSize := Nat.succ_mul _ _
      obtain ⟨sized, valid⟩ := ih before (by omega) earlier
      constructor
      · simp only [FileImage.pwrite, sized, length]
        omega
      · intro k small
        -- the block just written, or one of the earlier turns
        by_cases same : k = count
        · subst same
          have back := read_written_block before block (k * cfg.sizes.blockSize)
          rw [length] at back
          rw [back]
          exact filled_block_validates crc32 _ _ _ block (by omega) written
        · have other := read_other_block before block k count same
          rw [length] at other
          rw [other]
          exact valid k (by omega)

theorem block_count_covers (sizes : FileSizes) :
    sizes.fileSize ≤ blockCount sizes * sizes.blockSize ∧
      blockCount sizes * sizes.blockSize < 2 ^ 64 := by
  have positive := sizes.someBlock
  have small : sizes.fileSize ≤ sizes.totalSize := Nat.div_le_self _ _
  have total := sizes.totalSigned
  have block := sizes.blockInt
  have below := Nat.div_mul_le_self (sizes.fileSize + sizes.blockSize - 1) sizes.blockSize
  have above := Nat.lt_div_mul_add (a := sizes.fileSize + sizes.blockSize - 1) positive
  unfold blockCount
  omega

theorem created_file_valid (crc32 : Checksum) (cfg : FileConfig) (random : Nat → Nat → UInt8)
    (image : FileImage) (validate : cfg.validate = true)
    (created : createFile crc32 cfg random (blockCount cfg.sizes) = some image) :
    FileValid crc32 cfg image := by
  obtain ⟨covers, bound⟩ := block_count_covers cfg.sizes
  obtain ⟨sized, blocks⟩ := created_file_blocks crc32 cfg random _ image validate bound created
  constructor
  · rw [sized]
    exact covers
  · intro k inside
    apply blocks
    have reach : (k + 1) * cfg.sizes.blockSize ≤ blockCount cfg.sizes * cfg.sizes.blockSize :=
      Nat.le_trans inside covers
    exact Nat.le_of_mul_le_mul_right reach cfg.sizes.someBlock

theorem created_files_valid (crc32 : Checksum) (cfg : FileConfig)
    (random : Nat → Nat → Nat → UInt8) (count : Nat) (files : List FileImage)
    (validate : cfg.validate = true) (created : createFiles crc32 cfg random count = some files) :
    files.length = count ∧ ∀ image ∈ files, FileValid crc32 cfg image := by
  induction count generalizing files with
  | zero =>
      cases created
      simp
  | succ count ih =>
      obtain ⟨before, earlier, created⟩ := Option.bind_eq_some_iff.mp created
      obtain ⟨image, last, created⟩ := Option.bind_eq_some_iff.mp created
      cases created
      obtain ⟨length, valid⟩ := ih before earlier
      constructor
      · simp [length]
      · intro other member
        rcases List.mem_append.mp member with old | new
        · exact valid other old
        · rw [List.mem_singleton.mp new]
          exact created_file_valid crc32 cfg _ image validate last
end Layout

/-! The requests of a run. -/
section Requests

/-- Between requests of a sequential read: at the start of a block, and not
behind the last file. -/
structure SeqAligned (cfg : FileConfig) (st : GeneratorState) : Prop where
  file : st.currentFile ≤ cfg.sizes.numFiles
  block : ∃ k : Nat, st.position = (k * cfg.sizes.blockSize : Nat) ∧
    (k + 1) * cfg.sizes.blockSize ≤ cfg.fileSize

theorem block_room (k blockSize fileSize : Nat) (whole : blockSize ∣ fileSize)
    (below : k * blockSize < fileSize) : (k + 1) * blockSize ≤ fileSize := by
  obtain ⟨count, same⟩ := whole
  rw [same, Nat.mul_comm blockSize count] at below ⊢
  exact Nat.mul_le_mul_right _ (Nat.lt_of_mul_lt_mul_right below)

/-- A sequential read of the file and block that come next. -/
theorem seq_read_step (cfg : FileConfig) (st : GeneratorState) (reading : cfg.testMode = .read) :
    let rewound := decide (st.currentFile = cfg.sizes.numFiles)
    let position := if rewound then 0 else st.position
    let currentFile := if rewound then 0 else st.currentFile
    let size := min cfg.requestSize (cfg.fileSize - position)
    (fileGetSeqRequest cfg st).1 =
        { operation := .read, fileId := currentFile, pos := position, size := size } ∧
      (fileGetSeqRequest cfg st).2.position =
        (if position + size = cfg.fileSize then 0 else position + size) ∧
      (fileGetSeqRequest cfg st).2.currentFile =
        if position + size = cfg.fileSize then (currentFile + 1) % 2 ^ 32 else currentFile := by
  simp [fileGetSeqRequest, reading]

theorem seq_read_request (cfg : FileConfig) (st : GeneratorState) (reading : cfg.testMode = .read)
    (whole : cfg.sizes.blockSize ∣ cfg.fileSize)
    (oneBlock : min cfg.requestSize cfg.fileSize = cfg.sizes.blockSize)
    (aligned : SeqAligned cfg st) :
    WholeBlock cfg (fileGetSeqRequest cfg st).1 ∧ SeqAligned cfg (fileGetSeqRequest cfg st).2 := by
  have positive := cfg.sizes.someBlock
  have files := cfg.sizes.filesUnsigned
  have someFiles := cfg.sizes.someFiles
  have first : (0 + 1) * cfg.sizes.blockSize ≤ cfg.fileSize := by omega
  obtain ⟨request, nextPosition, nextFile⟩ := seq_read_step cfg st reading
  generalize place : (if decide (st.currentFile = cfg.sizes.numFiles) then 0 else st.position) =
    position at request nextPosition nextFile
  generalize number :
    (if decide (st.currentFile = cfg.sizes.numFiles) then 0 else st.currentFile) =
    currentFile at request nextFile
  -- The request starts where the previous one ended, or at file 0.
  have start : currentFile < cfg.sizes.numFiles ∧ ∃ k : Nat,
      position = (k * cfg.sizes.blockSize : Nat) ∧
        (k + 1) * cfg.sizes.blockSize ≤ cfg.fileSize := by
    by_cases rewinds : st.currentFile = cfg.sizes.numFiles
    · simp only [rewinds, decide_true, ↓reduceIte] at place number
      exact ⟨number ▸ someFiles, 0, by simp [← place], first⟩
    · simp only [rewinds, decide_false, Bool.false_eq_true, ↓reduceIte] at place number
      rw [← place, ← number]
      exact ⟨Nat.lt_of_le_of_ne aligned.file rewinds, aligned.block⟩
  obtain ⟨below, k, at_, room⟩ := start
  have expanded : (k + 1) * cfg.sizes.blockSize = k * cfg.sizes.blockSize + cfg.sizes.blockSize :=
    Nat.succ_mul _ _
  have size : min cfg.requestSize (cfg.fileSize - position) = cfg.sizes.blockSize := by omega
  rw [size] at request nextPosition nextFile
  have ended : position + (cfg.sizes.blockSize : Int) = ((k + 1) * cfg.sizes.blockSize : Nat) := by
    omega
  constructor
  · rw [request]
    exact ⟨below, ⟨k, at_, room⟩, rfl⟩
  -- the end of a file moves on to the next one, anything else to the next block
  · by_cases last : position + cfg.sizes.blockSize = cfg.fileSize
    · rw [if_pos last] at nextPosition nextFile
      constructor
      · rw [nextFile]
        exact Nat.le_trans (Nat.mod_le _ _) below
      · exact ⟨0, by simp [nextPosition], first⟩
    · rw [if_neg last] at nextPosition nextFile
      constructor
      · rw [nextFile]
        exact Nat.le_of_lt below
      · refine ⟨k + 1, nextPosition.trans ended, ?_⟩
        exact block_room (k + 1) _ _ whole (by omega)

/-- In a total of whole blocks for each file, a drawn block is one of a file. -/
theorem drawn_whole_block (cfg : FileConfig) (operation : FileOp) (draw : Draw)
    (divides : cfg.sizes.numFiles * cfg.sizes.blockSize ∣ cfg.sizes.totalSize)
    (request : FileRequest) (drawn : drawnRequest cfg.sizes operation draw = some request) :
    WholeBlock cfg request := by
  have positive := cfg.sizes.someBlock
  have files := cfg.sizes.filesUnsigned
  obtain ⟨perFile, total⟩ := divides
  have fileSize : cfg.sizes.fileSize = cfg.sizes.blockSize * perFile := by
    unfold FileSizes.fileSize
    rw [total, Nat.mul_assoc, Nat.mul_div_cancel_left _ cfg.sizes.someFiles]
  have exact_ : cfg.sizes.totalSize = cfg.sizes.numFiles * cfg.sizes.fileSize := by
    rw [total, fileSize, Nat.mul_assoc]
  have blockStart : cfg.sizes.blockSize ∣ tmppos cfg.sizes draw := Nat.dvd_sub_mod _
  unfold drawnRequest at drawn
  split at drawn
  · cases drawn
  · rename_i some_
    have fileDivides : cfg.sizes.blockSize ∣ cfg.sizes.fileSize := ⟨perFile, fileSize⟩
    have within : tmppos cfg.sizes draw % cfg.sizes.fileSize < cfg.sizes.fileSize :=
      Nat.mod_lt _ (Nat.pos_of_ne_zero some_)
    -- blocks are counted from the start of all files; with whole files also from each one's
    obtain ⟨k, start⟩ : cfg.sizes.blockSize ∣ tmppos cfg.sizes draw % cfg.sizes.fileSize :=
      (Nat.dvd_mod_iff fileDivides).mpr blockStart
    have room : (k + 1) * cfg.sizes.blockSize ≤ cfg.sizes.fileSize :=
      block_room k _ _ fileDivides (by rw [Nat.mul_comm, ← start]; exact within)
    have number : tmppos cfg.sizes draw / cfg.sizes.fileSize < cfg.sizes.numFiles := by
      rw [Nat.div_lt_iff_lt_mul (Nat.pos_of_ne_zero some_), ← exact_]
      exact tmppos_lt cfg.sizes draw
    have expanded : (k + 1) * cfg.sizes.blockSize =
        cfg.sizes.blockSize * k + cfg.sizes.blockSize := by rw [Nat.succ_mul, Nat.mul_comm]
    cases drawn
    constructor
    · exact Nat.lt_of_le_of_lt (Nat.mod_le _ _) number
    · exact ⟨k, by rw [start, Nat.mul_comm], room⟩
    · simp only [start]
      omega

def GeneratorAligned (cfg : FileConfig) (st : GeneratorState) : Prop :=
  cfg.testMode = .read → SeqAligned cfg st

/-- In a test that reads, every request that moves data is for one whole block. -/
theorem reading_request (cfg : FileConfig) (st after : GeneratorState) (tid reads writes : Nat)
    (draws : List Draw) (request : FileRequest) (layout : ReadsWholeBlocks cfg)
    (reading : ReadsData cfg) (aligned : GeneratorAligned cfg st)
    (made : fileNextEvent cfg st tid reads writes draws = .request request after) :
    (request.operation = .fsync ∨ WholeBlock cfg request) ∧ GeneratorAligned cfg after := by
  unfold fileNextEvent at made
  by_cases sequential : cfg.testMode = .read
  · have blocks : cfg.sizes.blockSize ∣ cfg.fileSize ∧
        min cfg.requestSize cfg.fileSize = cfg.sizes.blockSize := by
      simpa [ReadsWholeBlocks, sequential] using layout
    rw [if_pos (Or.inr (Or.inr sequential))] at made
    cases made
    obtain ⟨whole, next⟩ := seq_read_request cfg st sequential blocks.1 blocks.2
      (aligned sequential)
    exact ⟨Or.inr whole, fun _ => next⟩
  · refine ⟨?_, fun mode => absurd mode sequential⟩
    have random : cfg.testMode = .rndRead ∨ cfg.testMode = .rndRw := by
      rcases reading with mode | mode | mode
      · exact absurd mode sequential
      · exact Or.inl mode
      · exact Or.inr mode.1
    have divides : cfg.sizes.numFiles * cfg.sizes.blockSize ∣ cfg.sizes.totalSize := by
      rcases random with mode | mode <;> simpa [ReadsWholeBlocks, mode] using layout
    rw [if_neg (by rcases random with mode | mode <;> simp [mode])] at made
    rcases rnd_request_cases cfg st after tid reads writes draws request made with
      sync | ⟨draw, drawn⟩
    · exact Or.inl sync
    · exact Or.inr (drawn_whole_block cfg _ draw divides request drawn)

theorem seq_write_operation (cfg : FileConfig) (st : GeneratorState)
    (mode : cfg.testMode = .write ∨ cfg.testMode = .rewrite) :
    (fileGetSeqRequest cfg st).1.operation ≠ .read := by
  simp only [fileGetSeqRequest, if_pos mode]
  split
  · simp [fsync_request_operation]
  · simp

theorem writing_request (cfg : FileConfig) (st after : GeneratorState) (tid reads writes : Nat)
    (draws : List Draw) (request : FileRequest) (writing : ¬ ReadsData cfg)
    (made : fileNextEvent cfg st tid reads writes draws = .request request after) :
    request.operation ≠ .read := by
  unfold fileNextEvent at made
  split at made
  · rename_i sequential
    have mode : cfg.testMode = .write ∨ cfg.testMode = .rewrite := by
      rcases sequential with mode | mode | mode
      · exact Or.inl mode
      · exact Or.inr mode
      · exact absurd (Or.inl mode) writing
    have same : (fileGetSeqRequest cfg st).1 = request := (RndOutcome.request.inj made).1
    exact same ▸ seq_write_operation cfg st mode
  · rename_i random
    have operation : rndOperation cfg reads writes = .write := by
      unfold ReadsData at writing
      cases mode : cfg.testMode with
      | rndWrite => simp [rndOperation, mode]
      | rndRw =>
          have ratio : cfg.rwRatio ≤ 0 := by simpa [mode] using writing
          -- the quotient is never below a ratio of 0
          have positive : (0 : ℚ) ≤ (reads + 1) / (writes + 1) := by positivity
          simp only [rndOperation, mode]
          rw [if_neg (not_lt.mpr (le_trans ratio positive))]
      | read => simp [mode] at writing
      | rndRead => simp [mode] at writing
      | write => simp [mode] at random
      | rewrite => simp [mode] at random
    rcases rnd_request_cases cfg st after tid reads writes draws request made with
      sync | ⟨draw, drawn⟩
    · simp [sync]
    · rw [operation] at drawn
      simp [drawn_operation _ _ _ _ drawn]
end Requests

/-! Runs. -/
section Runs

/-- What a run keeps, in a test that reads. -/
structure RunValid (crc32 : Checksum) (cfg : FileConfig) (s : RunState) : Prop where
  files : s.files.length = cfg.sizes.numFiles
  blocks : ∀ image ∈ s.files, FileValid crc32 cfg image
  aligned : GeneratorAligned cfg s.generator
  quiet : s.alarm = false

theorem whole_block_passes (crc32 : Checksum) (cfg : FileConfig) (image : FileImage)
    (request : FileRequest) (whole : WholeBlock cfg request) (valid : FileValid crc32 cfg image) :
    readPasses crc32 cfg image request = true := by
  obtain ⟨k, start, room⟩ := whole.block
  have expanded : (k + 1) * cfg.sizes.blockSize = k * cfg.sizes.blockSize + cfg.sizes.blockSize :=
    Nat.succ_mul _ _
  have sized := valid.sized
  have count : min cfg.sizes.blockSize (image.length - k * cfg.sizes.blockSize) =
      cfg.sizes.blockSize := by omega
  have length : (image.data.read (k * cfg.sizes.blockSize) cfg.sizes.blockSize).length =
      cfg.sizes.blockSize := by simp [Buffer.read]
  unfold readPasses FileImage.pread
  simp only [start, whole.size, Int.toNat_natCast, count, length, valid.blocks k room]
  simp

theorem target_file (cfg : FileConfig) (request : FileRequest) (i : Nat)
    (target : requestTarget cfg request = .ok i) : i = request.fileId := by
  unfold requestTarget at target
  split at target
  · cases target
  · split at target
    · cases target
    · exact (Except.ok.inj target).symm

theorem whole_block_written (crc32 : Checksum) (cfg : FileConfig) (files : List FileImage)
    (random : Nat → UInt8) (request : FileRequest) (bytes : List UInt8)
    (validate : cfg.validate = true) (whole : WholeBlock cfg request)
    (valid : ∀ image ∈ files, FileValid crc32 cfg image)
    (written : writtenBytes crc32 cfg random (request.size % 2 ^ 32).toNat request.pos.toNat =
      some bytes) :
    ∀ image ∈ files.modify request.fileId fun image => image.pwrite bytes request.pos.toNat,
      FileValid crc32 cfg image := by
  obtain ⟨k, start, room⟩ := whole.block
  have small := cfg.sizes.blockInt
  have length : (request.size % 2 ^ 32).toNat = cfg.sizes.blockSize := by
    rw [whole.size]
    omega
  rw [writtenBytes, if_pos validate, length, start, Int.toNat_natCast] at written
  rw [start, Int.toNat_natCast]
  intro image member
  obtain ⟨i, bound, here⟩ := List.getElem_of_mem member
  rw [List.getElem_modify] at here
  have old := valid _ (List.getElem_mem (by simpa using bound : i < files.length))
  split at here
  · rw [← here]
    exact write_block_valid crc32 cfg _ random k bytes old room written
  · rw [← here]
    exact old

theorem whole_block_step (crc32 : Checksum) (cfg : FileConfig) (s after : RunState)
    (random : Nat → UInt8) (request : FileRequest) (validate : cfg.validate = true)
    (valid : RunValid crc32 cfg s) (kind : request.operation = .fsync ∨ WholeBlock cfg request)
    (executed : fileExecuteEvent crc32 cfg s random request = some after) :
    RunValid crc32 cfg after := by
  unfold fileExecuteEvent at executed
  split at executed
  · cases executed
    exact valid
  · rename_i i target
    have file := target_file cfg request i target
    split at executed
    · rename_i reading
      have whole : WholeBlock cfg request := by
        rcases kind with sync | whole
        · exact absurd (sync.symm.trans reading) (by decide)
        · exact whole
      have bound : i < s.files.length := by
        rw [file, valid.files]
        exact whole.file
      have passes := whole_block_passes crc32 cfg (s.files[i]) request whole
        (valid.blocks _ (List.getElem_mem bound))
      cases executed
      refine ⟨valid.files, valid.blocks, valid.aligned, ?_⟩
      simp [valid.quiet, List.getElem?_eq_getElem bound, passes]
    · rename_i writing
      have whole : WholeBlock cfg request := by
        rcases kind with sync | whole
        · exact absurd (sync.symm.trans writing) (by decide)
        · exact whole
      obtain ⟨bytes, written, same⟩ := Option.map_eq_some_iff.mp executed
      subst same
      refine ⟨by simp [valid.files], ?_, valid.aligned, valid.quiet⟩
      rw [file]
      exact whole_block_written crc32 cfg s.files random request bytes validate whole
        valid.blocks written
    · cases executed
      exact valid

theorem step_cases (crc32 : Checksum) (cfg : FileConfig) (s t : RunState) (a : FileAction)
    (taken : step crc32 cfg s a = some t) :
    ∃ request after, fileNextEvent cfg s.generator a.tid a.reads a.writes a.draws =
        .request request after ∧
      fileExecuteEvent crc32 cfg { s with generator := after } a.random request = some t := by
  unfold step at taken
  split at taken
  · cases taken
  · split at taken
    · rename_i request after made
      exact ⟨request, after, made, taken⟩
    · cases taken
    · cases taken

theorem reading_step (crc32 : Checksum) (cfg : FileConfig) (s t : RunState) (a : FileAction)
    (validate : cfg.validate = true) (layout : ReadsWholeBlocks cfg) (reading : ReadsData cfg)
    (valid : RunValid crc32 cfg s) (taken : step crc32 cfg s a = some t) :
    RunValid crc32 cfg t := by
  obtain ⟨request, after, made, executed⟩ := step_cases crc32 cfg s t a taken
  obtain ⟨kind, aligned⟩ := reading_request cfg s.generator after a.tid a.reads a.writes a.draws
    request layout reading valid.aligned made
  exact whole_block_step crc32 cfg { s with generator := after } t a.random request validate
    ⟨valid.files, valid.blocks, aligned, valid.quiet⟩ kind executed

theorem writing_step (crc32 : Checksum) (cfg : FileConfig) (s t : RunState) (a : FileAction)
    (writing : ¬ ReadsData cfg) (quiet : s.alarm = false)
    (taken : step crc32 cfg s a = some t) : t.alarm = false := by
  obtain ⟨request, after, made, executed⟩ := step_cases crc32 cfg s t a taken
  have notRead := writing_request cfg s.generator after a.tid a.reads a.writes a.draws request
    writing made
  unfold fileExecuteEvent at executed
  split at executed
  · cases executed
    exact quiet
  · split at executed
    · rename_i reading
      exact absurd reading notRead
    · obtain ⟨bytes, _, same⟩ := Option.map_eq_some_iff.mp executed
      subst same
      exact quiet
    · cases executed
      exact quiet

theorem started_valid (crc32 : Checksum) (cfg : FileConfig)
    (random : Nat → Nat → Nat → UInt8) (perThread : Nat → Nat × Int) (created : List FileImage)
    (validate : cfg.validate = true)
    (files : createFiles crc32 cfg random cfg.sizes.numFiles = some created)
    (layout : ReadsWholeBlocks cfg) (reading : ReadsData cfg) :
    RunValid crc32 cfg (started cfg perThread created) := by
  obtain ⟨length, valid⟩ := created_files_valid crc32 cfg random _ created validate files
  have kept : preparedFiles cfg created = created := by
    unfold preparedFiles
    rw [if_neg]
    rcases reading with mode | mode | mode <;> simp [mode]
  refine ⟨?_, ?_, ?_, rfl⟩
  · simpa [started, kept] using length
  · simpa [started, kept] using valid
  · intro sequential
    have blocks : cfg.sizes.blockSize ∣ cfg.fileSize ∧
        min cfg.requestSize cfg.fileSize = cfg.sizes.blockSize := by
      simpa [ReadsWholeBlocks, sequential] using layout
    exact ⟨Nat.zero_le _, 0, by simp [started, initVars], by omega⟩

/-- With synchronous I/O and files from `create_files`, no READ of any run fails
its validation, if the test reads whole blocks only. -/
theorem no_false_alarm (crc32 : Checksum) (cfg : FileConfig)
    (random : Nat → Nat → Nat → UInt8) (perThread : Nat → Nat × Int) (created : List FileImage)
    (schedule : List FileAction) (validate : cfg.validate = true)
    (files : createFiles crc32 cfg random cfg.sizes.numFiles = some created)
    (layout : ReadsData cfg → ReadsWholeBlocks cfg) :
    Always (step crc32 cfg) (fun s => s.alarm = false) (started cfg perThread created)
      schedule := by
  by_cases reading : ReadsData cfg
  · refine always_mono (fun s (valid : RunValid crc32 cfg s) => valid.quiet) _ _ ?_
    apply invariant_keeps
    · intro s a t valid taken
      exact reading_step crc32 cfg s t a validate (layout reading) reading valid taken
    · exact started_valid crc32 cfg random perThread created validate files (layout reading) reading
  · apply invariant_keeps
    · intro s a t quiet taken
      exact writing_step crc32 cfg s t a reading quiet taken
    · rfl

/-- `--file-num=1 --file-total-size=32 --file-block-size=16`, with merged requests. -/
def mergedOptions (merged : Int) : FileOptions :=
  { tailOptions with
    fileNum := 1, totalSize := 32, blockSize := 16, testMode := some "seqrd"
    mergedRequests := merged }

def mergedConfig (merged : Int) : FileConfig :=
  { tailConfig with
    sizes := ⟨1, 32, 16, Nat.one_pos, by decide, by decide, by decide, by decide, by decide⟩
    testMode := .read, mergedRequests := merged, requestSize := requestSizeOf 16 merged
    validate := true }

def zeros : Nat → Nat → Nat → UInt8 := fun _ _ _ => 0

def noRecords : Nat → Nat × Int := fun _ => (0, 0)

def oneEvent : FileAction :=
  { tid := 0, reads := 0, writes := 0, draws := [], random := fun _ => 0 }

/-- The two blocks of the file with a CRC that is always 0. -/
def twoBlocks : List FileImage :=
  (createFiles (fun _ => 0) (mergedConfig 0) zeros 1).getD []

theorem no_false_alarm_unmerged :
    createFiles (fun _ => 0) (mergedConfig 0) zeros 1 = some twoBlocks ∧
      Always (step (fun _ => 0) (mergedConfig 0)) (fun s => s.alarm = false)
        (started (mergedConfig 0) noRecords twoBlocks) [oneEvent, oneEvent] :=
  ⟨rfl, no_false_alarm (fun _ => 0) (mergedConfig 0) zeros noRecords twoBlocks _ rfl rfl
    fun _ => (by decide : 16 ∣ 32 ∧ min (16 : Int) (32 : Nat) = (16 : Nat))⟩

/-- A read of two merged blocks ends in the trailer of the second one, whose
offset is 16, whatever the CRC is. -/
theorem merged_read_alarms :
    parseArguments "run" true 1 true (mergedOptions 2) = .ok (mergedConfig 2) ∧
      ∀ crc32 created, createFiles crc32 (mergedConfig 2) zeros 1 = some created →
        ¬ Always (step crc32 (mergedConfig 2)) (fun s => s.alarm = false)
          (started (mergedConfig 2) noRecords created) [oneEvent] := by
  refine ⟨by decide +kernel, ?_⟩
  intro crc32 created files all
  obtain ⟨length, valid⟩ := created_files_valid crc32 (mergedConfig 2) zeros 1 created rfl files
  obtain ⟨image, rfl⟩ := List.length_eq_one_iff.mp length
  have second := (valid image List.mem_cons_self).blocks 1 (by decide)
  have sized := (valid image List.mem_cons_self).sized
  have quiet : (!readPasses crc32 (mergedConfig 2) image ⟨.read, 0, 0, 32⟩) = false :=
    all.2 _ rfl
  have passes := Bool.not_eq_eq_eq_not.mp quiet
  unfold readPasses FileImage.pread at passes
  have whole : min 32 image.length = 32 := Nat.min_eq_left sized
  have merged : fileValidateBuffer crc32 (image.data.read 0 32) 0 = some true := by
    simpa [whole, mergedConfig] using (Bool.and_eq_true_iff.mp passes).2
  exact absurd (same_end_same_start crc32 image.data 0 16 32 16 rfl (by decide) (by decide)
    merged second) (by decide)
end Runs
end PteSysbench.FileValidation
