import PteSysbench.ActionSystem
import PteSysbench.FileRequests
import Mathlib.Algebra.BigOperators.Intervals

/-!
`create_files` of sb_fileio.c against any kernel. Its loops count a whole block for every
call of write(), however many bytes the call has written: a file whose writes were cut
short ends below `file_size`, and the size check of `file_prepare` refuses it.
-/

namespace PteSysbench.CreateFiles

open ActionSystem FileRequests

/-! The loops. -/
section Files

/-- Why there are no files: an error was reported, or a signed counter has overflown. -/
inductive Stop where
  | failed
  | overflow
  deriving DecidableEq

/-- A test file as the kernel presents it: `st_size` before, whether open() succeeds, and the
bytes that the calls of write() take, `none` for -1. -/
structure TestFile (blockSize : Nat) where
  size : Nat
  opened : Bool
  writes : Nat → Option (Fin (blockSize + 1))
  sized : size < 2 ^ 63

variable (sizes : FileSizes)

/-- The loop over the blocks of a file; `length` is its size so far and `i` counts the calls. -/
def writeBlocks (file : TestFile sizes.blockSize) (i offset written length : Nat) :
    Except Stop (Nat × Nat) :=
  if offset < sizes.fileSize then
    match file.writes i with
    | none => .error .failed
    | some bytes =>
        if written + sizes.blockSize < 2 ^ 63 ∧ offset + sizes.blockSize < 2 ^ 63 then
          writeBlocks file (i + 1) (offset + sizes.blockSize) (written + sizes.blockSize)
            (length + bytes)
        else .error .overflow
  else .ok (length, written)
termination_by sizes.fileSize - offset
decreasing_by
  have := sizes.someBlock
  omega

/-- One turn of the outer loop: the size of the file behind it, and `written`. -/
def createFile (written : Nat) (file : TestFile sizes.blockSize) : Except Stop (Nat × Nat) :=
  if file.opened then writeBlocks sizes file 0 file.size written file.size else .error .failed

/-- The sizes of all files, if 0 is returned. -/
def createFiles : Nat → List (TestFile sizes.blockSize) → Except Stop (List Nat)
  | _, [] => .ok []
  | written, file :: rest => do
      let closed ← createFile sizes written file
      let others ← createFiles closed.2 rest
      .ok (closed.1 :: others)

/-- The size check of `file_prepare`; a sequential write test starts with new files. -/
def sizeCheck (mode : FileTestMode) (stSizes : List Nat) : Bool :=
  mode = .write || stSizes.all fun stSize => !decide (stSize < sizes.fileSize)

/-- A return of 0 promises files of `file_size` bytes, which any test accepts. -/
def Sound (files : List (TestFile sizes.blockSize)) : Prop :=
  createFiles sizes 0 files ≠ .error .overflow ∧
    ∀ stSizes, createFiles sizes 0 files = .ok stSizes →
      (∀ stSize ∈ stSizes, sizes.fileSize ≤ stSize) ∧ ∀ mode, sizeCheck sizes mode stSizes = true

end Files

/-! What the kernel's answers amount to. -/
section Answers
variable {blockSize : Nat} (writes : Nat → Option (Fin (blockSize + 1)))

/-- How many of the next `n` calls from `i` on succeed before one fails. -/
def answers : Nat → Nat → Nat
  | _, 0 => 0
  | i, n + 1 => if (writes i).isSome then answers (i + 1) n + 1 else 0

/-- The bytes of the next `n` calls. -/
def bytesWritten (i n : Nat) : Nat :=
  ∑ k ∈ Finset.range n, match writes (i + k) with
    | none => 0
    | some bytes => bytes.val

/-- The bytes that short writes among the next `n` calls leave out of their blocks. -/
def bytesLeftOut (i n : Nat) : Nat :=
  ∑ k ∈ Finset.range n, match writes (i + k) with
    | none => 0
    | some bytes => blockSize - bytes.val

theorem answers_all (i n : Nat) :
    answers writes i n = n ↔ ∀ k < n, writes (i + k) ≠ none := by
  induction n generalizing i with
  | zero => simp [answers]
  | succ n ih =>
      rw [answers, Nat.forall_lt_succ_left]
      have later := ih (i + 1)
      simp only [Nat.add_assoc, Nat.add_comm 1] at later
      cases writes i with
      | none => simp
      | some bytes => simp [later]

theorem written_or_left_out (i n : Nat) (all : answers writes i n = n) :
    bytesWritten writes i n + bytesLeftOut writes i n = n * blockSize := by
  have some_ := (answers_all writes i n).mp all
  have each : ∀ k ∈ Finset.range n,
      ((match writes (i + k) with | none => 0 | some bytes => bytes.val) +
        match writes (i + k) with | none => 0 | some bytes => blockSize - bytes.val) =
          blockSize := by
    intro k member
    obtain ⟨bytes, here⟩ := Option.ne_none_iff_exists'.mp (some_ k (Finset.mem_range.mp member))
    simp only [here]
    exact Nat.add_sub_of_le (Nat.lt_succ_iff.mp bytes.is_lt)
  rw [bytesWritten, bytesLeftOut, ← Finset.sum_add_distrib, Finset.sum_congr rfl each,
    Finset.sum_const, Finset.card_range]
  rfl

theorem bytes_written_cons (i n : Nat) (bytes : Fin (blockSize + 1))
    (here : writes i = some bytes) :
    bytesWritten writes i (n + 1) = bytes + bytesWritten writes (i + 1) n := by
  rw [bytesWritten, Finset.sum_range_succ', Nat.add_comm]
  simp only [bytesWritten, Nat.add_zero, here, Nat.add_assoc, Nat.add_comm 1]

end Answers

/-! One file. -/
section File
variable (sizes : FileSizes)

/-- The calls of write() that a file of `size` bytes needs if none fails. -/
def blocks (size : Nat) : Nat := (sizes.fileSize - size + (sizes.blockSize - 1)) / sizes.blockSize

theorem blocks_done (size : Nat) (enough : ¬ size < sizes.fileSize) : blocks sizes size = 0 := by
  have := sizes.someBlock
  exact Nat.div_eq_of_lt (by omega)

theorem blocks_step (size : Nat) (short : size < sizes.fileSize) :
    blocks sizes size = blocks sizes (size + sizes.blockSize) + 1 := by
  have := sizes.someBlock
  unfold blocks
  rcases Nat.lt_or_ge (size + sizes.blockSize) sizes.fileSize with more | last
  · rw [← Nat.add_div_right _ this]
    congr 1
    omega
  · rw [Nat.div_eq_of_lt (a := sizes.fileSize - (size + sizes.blockSize) + _) (by omega),
      Nat.div_eq_iff this]
    omega

/-- Every file needs its last block to reach `file_size`. -/
theorem blocks_reach (size : Nat) :
    sizes.fileSize ≤ size + blocks sizes size * sizes.blockSize := by
  have positive := sizes.someBlock
  have := Nat.lt_div_mul_add (a := sizes.fileSize - size + (sizes.blockSize - 1)) positive
  unfold blocks
  omega

theorem write_blocks_result (file : TestFile sizes.blockSize) (n i offset written length : Nat)
    (needed : blocks sizes offset = n) (counted : written < 2 ^ 63) (placed : offset < 2 ^ 63) :
    writeBlocks sizes file i offset written length =
      if written + answers file.writes i n * sizes.blockSize < 2 ^ 63 ∧
          offset + answers file.writes i n * sizes.blockSize < 2 ^ 63 then
        if answers file.writes i n = n then
          .ok (length + bytesWritten file.writes i n, written + n * sizes.blockSize)
        else .error .failed
      else .error .overflow := by
  -- on the blocks that are still needed; the writes so far were all answered
  induction n generalizing i offset written length with
  | zero =>
      have enough : ¬ offset < sizes.fileSize := by
        intro short
        have := blocks_step sizes offset short
        omega
      rw [writeBlocks, if_neg enough]
      simpa [answers, bytesWritten] using And.intro counted placed
  | succ n ih =>
      have short : offset < sizes.fileSize := by
        by_contra enough
        have := blocks_done sizes offset enough
        omega
      have next := blocks_step sizes offset short
      rw [writeBlocks, if_pos short]
      cases here : file.writes i with
      | none => simpa [answers, here] using And.intro counted placed
      | some bytes =>
          have turn : answers file.writes i (n + 1) = answers file.writes (i + 1) n + 1 := by
            rw [answers, here, Option.isSome_some, if_pos rfl]
          rw [turn, Nat.add_one_mul]
          by_cases room : written + sizes.blockSize < 2 ^ 63 ∧ offset + sizes.blockSize < 2 ^ 63
          · simp only [if_pos room]
            rw [ih (i + 1) _ _ _ (by omega) room.1 room.2, bytes_written_cons _ _ _ bytes here]
            simp only [Nat.add_right_cancel_iff, Nat.add_one_mul, Nat.add_assoc,
              Nat.add_comm sizes.blockSize]
          · simp only [if_neg room]
            rw [if_neg (by omega)]

/-- open() and all the calls of write() that the file needs succeed. -/
def Answered (file : TestFile sizes.blockSize) : Prop :=
  file.opened = true ∧ ∀ k < blocks sizes file.size, file.writes k ≠ none

/-- The calls of write() that succeed. -/
def calls (file : TestFile sizes.blockSize) : Nat :=
  if file.opened then answers file.writes 0 (blocks sizes file.size) else 0

/-- The short writes leave out no more than the last block reaches beyond `file_size`. -/
def Covered (file : TestFile sizes.blockSize) : Prop :=
  bytesLeftOut file.writes 0 (blocks sizes file.size) ≤
    file.size + blocks sizes file.size * sizes.blockSize - sizes.fileSize

/-- The blocks counted for the file leave both counters in `long long`. -/
def CountersFit (written : Nat) (file : TestFile sizes.blockSize) : Prop :=
  written + calls sizes file * sizes.blockSize < 2 ^ 63 ∧
    file.size + calls sizes file * sizes.blockSize < 2 ^ 63

instance (written : Nat) (file : TestFile sizes.blockSize) :
    Decidable (CountersFit sizes written file) :=
  inferInstanceAs (Decidable (_ ∧ _))

instance (file : TestFile sizes.blockSize) : Decidable (Answered sizes file) :=
  inferInstanceAs (Decidable (_ ∧ _))

def sizeAfter (file : TestFile sizes.blockSize) : Nat :=
  file.size + bytesWritten file.writes 0 (blocks sizes file.size)

theorem create_file_result (written : Nat) (file : TestFile sizes.blockSize)
    (counted : written < 2 ^ 63) :
    createFile sizes written file =
      if CountersFit sizes written file then
        if Answered sizes file then
          .ok (sizeAfter sizes file, written + calls sizes file * sizes.blockSize)
        else .error .failed
      else .error .overflow := by
  unfold createFile
  by_cases opened : file.opened = true
  · have all : answers file.writes 0 (blocks sizes file.size) = blocks sizes file.size ↔
        Answered sizes file := by
      rw [answers_all]
      simp [Answered, opened]
    have count : calls sizes file = answers file.writes 0 (blocks sizes file.size) :=
      if_pos opened
    rw [if_pos opened, write_blocks_result sizes file _ 0 file.size written file.size rfl counted
      file.sized]
    simp only [CountersFit, count, all]
    by_cases answered : Answered sizes file
    · rw [if_pos answered, if_pos answered, all.mpr answered]
      rfl
    · rw [if_neg answered, if_neg answered]
  · have none_ : calls sizes file = 0 := if_neg opened
    have fits : CountersFit sizes written file := by
      simpa [CountersFit, none_] using And.intro counted file.sized
    rw [if_neg opened, if_pos fits, if_neg fun answered => opened answered.1]

theorem covered_iff (file : TestFile sizes.blockSize) (answered : Answered sizes file) :
    Covered sizes file ↔ sizes.fileSize ≤ sizeAfter sizes file := by
  have all : answers file.writes 0 (blocks sizes file.size) = blocks sizes file.size :=
    (answers_all _ _ _).mpr (by simpa using answered.2)
  have whole := written_or_left_out file.writes 0 (blocks sizes file.size) all
  have reach := blocks_reach sizes file.size
  unfold Covered sizeAfter
  omega

end File

/-! All files. -/
section Run
variable (sizes : FileSizes)

/-- No counter overflows in the files up to the first one whose creation fails. -/
def CountersInRange : Nat → List (TestFile sizes.blockSize) → Prop
  | _, [] => True
  | written, file :: rest => CountersFit sizes written file ∧
      (Answered sizes file →
        CountersInRange (written + calls sizes file * sizes.blockSize) rest)

theorem create_files_in_range (files : List (TestFile sizes.blockSize)) (written : Nat)
    (counted : written < 2 ^ 63) :
    createFiles sizes written files ≠ .error .overflow ↔
      CountersInRange sizes written files := by
  induction files generalizing written with
  | nil => simp [createFiles, CountersInRange]
  | cons file rest ih =>
      rw [createFiles, create_file_result sizes written file counted, CountersInRange]
      by_cases fits : CountersFit sizes written file
      · rw [if_pos fits]
        by_cases answered : Answered sizes file
        · have later := ih _ fits.1
          rw [if_pos answered]
          simp only [fits, answered, true_and, forall_const, ← later, bind, Except.bind]
          cases createFiles sizes _ rest <;> simp
        · rw [if_neg answered]
          simp [fits, answered, bind, Except.bind]
      · rw [if_neg fits]
        simp [fits, bind, Except.bind]

theorem create_files_sizes (files : List (TestFile sizes.blockSize)) (written : Nat)
    (counted : written < 2 ^ 63) (stSizes : List Nat)
    (returned : createFiles sizes written files = .ok stSizes) :
    (∀ file ∈ files, Answered sizes file) ∧ stSizes = files.map (sizeAfter sizes) := by
  induction files generalizing written stSizes with
  | nil =>
      obtain rfl := Except.ok.inj returned
      exact ⟨fun _ member => absurd member List.not_mem_nil, rfl⟩
  | cons file rest ih =>
      rw [createFiles, create_file_result sizes written file counted] at returned
      obtain ⟨closed, first, returned⟩ := bind_ok _ _ _ returned
      obtain ⟨others, later, returned⟩ := bind_ok _ _ _ returned
      obtain rfl := Except.ok.inj returned
      split at first
      next fits =>
        split at first
        next answered =>
          obtain rfl := Except.ok.inj first
          obtain ⟨all, rfl⟩ := ih _ fits.1 others later
          exact ⟨List.forall_mem_cons.mpr ⟨answered, all⟩, rfl⟩
        next => cases first
      next => cases first

theorem create_files_returned (files : List (TestFile sizes.blockSize)) (written : Nat)
    (counted : written < 2 ^ 63) (inRange : CountersInRange sizes written files)
    (answered : ∀ file ∈ files, Answered sizes file) :
    createFiles sizes written files = .ok (files.map (sizeAfter sizes)) := by
  induction files generalizing written with
  | nil => rfl
  | cons file rest ih =>
      obtain ⟨first, others⟩ := List.forall_mem_cons.mp answered
      rw [createFiles, create_file_result sizes written file counted, if_pos inRange.1,
        if_pos first]
      simp only [bind, Except.bind, ih _ inRange.1.1 (inRange.2 first) others]
      rfl

/-- For any other mode the check of `file_prepare` is about every file. -/
theorem size_check_all (stSizes : List Nat) :
    (∀ mode, sizeCheck sizes mode stSizes = true) ↔
      ∀ stSize ∈ stSizes, sizes.fileSize ≤ stSize := by
  constructor
  · intro checked
    simpa [sizeCheck] using checked .read
  · intro large mode
    simpa [sizeCheck] using Or.inr large

/-- `create_files` is sound exactly where its counters fit and, unless a call fails, short
writes leave out no more of any file than its last block reaches beyond `file_size`. -/
theorem create_files_sound_iff (files : List (TestFile sizes.blockSize)) :
    Sound sizes files ↔ CountersInRange sizes 0 files ∧
      ((∀ file ∈ files, Answered sizes file) → ∀ file ∈ files, Covered sizes file) := by
  unfold Sound
  simp only [size_check_all, and_self]
  rw [create_files_in_range sizes files 0 (by decide)]
  refine and_congr_right fun inRange => ?_
  constructor
  · intro large answered file member
    have returned := create_files_returned sizes files 0 (by decide) inRange answered
    rw [covered_iff sizes file (answered file member)]
    exact large _ returned _ (List.mem_map_of_mem member)
  · intro covered stSizes returned stSize member
    obtain ⟨answered, rfl⟩ := create_files_sizes sizes files 0 (by decide) stSizes returned
    obtain ⟨file, among, rfl⟩ := List.mem_map.mp member
    exact (covered_iff sizes file (answered file among)).mp (covered answered file among)

theorem one_file_unsigned : 1 < 2 ^ 32 := by decide

theorem block_signed : 16384 < 2 ^ 63 := by decide

theorem block_int : 16384 < 2 ^ 31 := by decide

/-- One file of one block. -/
def oneBlock : FileSizes :=
  { numFiles := 1, totalSize := 16384, blockSize := 16384, someFiles := Nat.one_pos
    filesUnsigned := one_file_unsigned, someBytes := Nat.succ_pos 16383
    totalSigned := block_signed, someBlock := Nat.succ_pos 16383, blockInt := block_int }

/-- The disk has room for 100 bytes. -/
def shortWrite : TestFile oneBlock.blockSize :=
  { size := 0, opened := true, writes := fun _ => some ⟨100, by decide⟩, sized := (by decide) }

theorem short_write_unnoticed :
    createFiles oneBlock 0 [shortWrite] = .ok [100] ∧ ¬ Sound oneBlock [shortWrite] := by
  have answered : ∀ file ∈ [shortWrite], Answered oneBlock file :=
    List.forall_mem_singleton.mpr (by decide)
  have inRange : CountersInRange oneBlock 0 [shortWrite] := ⟨by decide, fun _ => trivial⟩
  have returned : createFiles oneBlock 0 [shortWrite] = .ok [100] :=
    create_files_returned oneBlock _ 0 (by decide) inRange answered
  refine ⟨returned, fun sound => ?_⟩
  exact absurd ((sound.2 _ returned).1 100 (List.mem_singleton_self _)) (by decide)

end Run

end PteSysbench.CreateFiles
