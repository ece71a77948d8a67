import Mathlib.Algebra.Group.Nat.Defs
import Mathlib.Data.List.Nodup
import Mathlib.Logic.Function.Basic

/-!
`--file-io-mode=mmap` of sb_fileio.c on 32-bit builds with large file support: each read
or write maps a window of the file of its own. `size_t`, `ssize_t`, `unsigned long` and
pointers have 32 bits, `long long` and `off_t` have 64.
-/

namespace PteSysbench.MmapWindow

/-! The two functions, as far as `FILE_IO_MODE_MMAP` goes. -/
section Transfers

structure MmapCall where
  length : BitVec 32
  offset : BitVec 64
  deriving DecidableEq

/-- `positions`: where in the file the bytes copied are, in order; `none` when some of
them are not in the mapping. -/
structure Transfer where
  call : MmapCall
  positions : Option (List Nat)
  result : BitVec 32
  deriving DecidableEq

/-- `memcpy` of `count` bytes from or to `addr`, the call having mapped at `start`. -/
def memcpyPositions (call : MmapCall) (start addr count : BitVec 32) : Option (List Nat) :=
  if (List.range count.toNat).all fun i => addr + BitVec.ofNat 32 i - start < call.length then
    some ((List.range count.toNat).map fun i =>
      call.offset.toNat + (addr + BitVec.ofNat 32 i - start).toNat)
  else none

/-- The file part of `file_mmap_prepare`: `file_page_mask`. -/
def fileMmapPrepare (granularity : BitVec 32) : BitVec 32 := ~~~(granularity - 1)

/-- `mmap` answered `start`, or MAP_FAILED. `page_addr` and `page_offset` are `long long`. -/
def filePread (filePageMask count : BitVec 32) (offset : BitVec 64)
    (answer : Option (BitVec 32)) : Transfer :=
  let pageAddr : BitVec 64 := offset &&& filePageMask.setWidth 64
  let pageOffset : BitVec 64 := offset - pageAddr
  let call : MmapCall :=
    { length := (count.signExtend 64 + pageOffset).setWidth 32, offset := pageAddr }
  match answer with
  | none => { call := call, positions := some [], result := 0 }
  | some start =>
      { call := call
        positions := memcpyPositions call start (start + pageOffset.setWidth 32) count
        result := count }

/-- Here `page_addr` and `page_offset` are `size_t`. -/
def filePwrite (filePageMask count : BitVec 32) (offset : BitVec 64)
    (answer : Option (BitVec 32)) : Transfer :=
  let pageAddr : BitVec 32 := (offset &&& filePageMask.setWidth 64).setWidth 32
  let pageOffset : BitVec 32 := (offset - pageAddr.setWidth 64).setWidth 32
  let call : MmapCall := { length := count + pageOffset, offset := pageAddr.setWidth 64 }
  match answer with
  | none => { call := call, positions := some [], result := 0 }
  | some start =>
      { call := call
        positions := memcpyPositions call start (start + pageOffset) count
        result := count }

/-- What a read copies out of the file. -/
def Transfer.readFrom (transfer : Transfer) (file : Nat → UInt8) : Option (List UInt8) :=
  transfer.positions.map fun positions => positions.map file

def writeAll (file : Nat → UInt8) (pairs : List (Nat × UInt8)) : Nat → UInt8 :=
  pairs.foldl (fun file pair => Function.update file pair.1 pair.2) file

/-- The file behind a write of `buf`. -/
def Transfer.writeTo (transfer : Transfer) (file : Nat → UInt8) (buf : List UInt8) :
    Option (Nat → UInt8) :=
  transfer.positions.map fun positions => writeAll file (positions.zip buf)
end Transfers

/-! Words and masks. -/
section Masks
variable {w : Nat}

theorem mask_parts (word mask : BitVec w) :
    (word &&& mask).toNat + (word &&& ~~~mask).toNat = word.toNat := by
  have apart : (word &&& mask) &&& (word &&& ~~~mask) = 0#w := by
    ext i
    simp only [BitVec.getElem_and, BitVec.getElem_not, BitVec.getElem_zero]
    cases word[i] <;> cases mask[i] <;> rfl
  have joined : (word &&& mask) ||| (word &&& ~~~mask) = word := by
    ext i
    simp only [BitVec.getElem_or, BitVec.getElem_and, BitVec.getElem_not]
    cases word[i] <;> cases mask[i] <;> rfl
  rw [← BitVec.toNat_add_of_and_eq_zero apart, BitVec.add_eq_or_of_and_eq_zero _ _ apart, joined]

theorem page_part (word : BitVec w) (k : Nat) (small : k < w) :
    (word &&& (BitVec.twoPow w k - 1)).toNat = word.toNat % 2 ^ k := by
  have power : (BitVec.twoPow w k).toNat = 2 ^ k := BitVec.toNat_twoPow_of_lt small
  have one : (1 : BitVec w).toNat = 1 := BitVec.toNat_one (by omega)
  have positive := Nat.two_pow_pos k
  have below : 1 ≤ BitVec.twoPow w k := by
    rw [BitVec.le_def, power, one]
    exact positive
  rw [BitVec.toNat_and, BitVec.toNat_sub_of_le below, power, one, Nat.and_two_pow_sub_one_eq_mod]

/-- A wider word under a narrower mask has the low part only. -/
theorem wide_and (word : BitVec 64) (mask : BitVec 32) :
    word &&& mask.setWidth 64 = (word.setWidth 32 &&& mask).setWidth 64 := by
  apply BitVec.eq_of_getLsbD_eq
  intro i inside
  simp only [BitVec.getLsbD_and, BitVec.getLsbD_setWidth]
  by_cases low : i < 32
  · simp only [inside, low, decide_true, Bool.true_and]
  · simp only [BitVec.getLsbD_of_ge mask i (by omega), Bool.and_false]

theorem low_sub (a b : BitVec 64) : (a - b).setWidth 32 = a.setWidth 32 - b.setWidth 32 := by
  apply BitVec.eq_of_toNat_eq
  have left := a.isLt
  have right := b.isLt
  simp only [BitVec.toNat_setWidth, BitVec.toNat_sub]
  omega

theorem low_wide (word : BitVec 32) : (word.setWidth 64).setWidth 32 = word := by
  rw [BitVec.setWidth_setWidth_of_le word (by decide), BitVec.setWidth_eq]

theorem low_signed (word : BitVec 32) : (word.signExtend 64).setWidth 32 = word := by
  apply BitVec.eq_of_getLsbD_eq
  intro i inside
  have wide : i < 64 := by omega
  simp only [BitVec.getLsbD_setWidth, BitVec.getLsbD_signExtend, inside, wide, decide_true,
    Bool.true_and, if_true]

theorem from_start (start a b : BitVec 32) : start + a + b - start = a + b := by
  rw [BitVec.add_assoc, BitVec.add_comm start, BitVec.add_sub_cancel]
end Masks

/-! Both functions map the page of the low 32 bits. -/
section Windows

/-- An access at `low`, the low part of an offset. -/
def windowTransfer (filePageMask count low : BitVec 32) (answer : Option (BitVec 32)) :
    Transfer :=
  let pageAddr := low &&& filePageMask
  let call : MmapCall := { length := count + (low - pageAddr), offset := pageAddr.setWidth 64 }
  match answer with
  | none => { call := call, positions := some [], result := 0 }
  | some start =>
      { call := call
        positions := memcpyPositions call start (start + (low - pageAddr)) count
        result := count }

variable (filePageMask count : BitVec 32) (offset : BitVec 64) (answer : Option (BitVec 32))

theorem pread_window : filePread filePageMask count offset answer =
    windowTransfer filePageMask count (offset.setWidth 32) answer := by
  simp only [filePread, windowTransfer, wide_and, BitVec.setWidth_add _ _ (by decide : 32 ≤ 64),
    low_sub, low_wide, low_signed]

theorem pwrite_window : filePwrite filePageMask count offset answer =
    windowTransfer filePageMask count (offset.setWidth 32) answer := by
  simp only [filePwrite, windowTransfer, wide_and, low_sub, low_wide]

/-- `file_page_mask` for pages of `2 ^ k` bytes. -/
def pageMask (k : Nat) : BitVec 32 := fileMmapPrepare (BitVec.twoPow 32 k)

variable {k : Nat} {count} {low : BitVec 32}

theorem page_parts (small : k < 32) (low : BitVec 32) :
    (low &&& pageMask k).toNat + low.toNat % 2 ^ k = low.toNat := by
  have parts := mask_parts low (pageMask k)
  rw [show ~~~pageMask k = BitVec.twoPow 32 k - 1 from BitVec.not_not] at parts
  rwa [page_part low k small] at parts

theorem page_offset (small : k < 32) (low : BitVec 32) :
    (low - (low &&& pageMask k)).toNat = low.toNat % 2 ^ k := by
  have parts := page_parts small low
  have below : low &&& pageMask k ≤ low := by
    rw [BitVec.le_def]
    omega
  rw [BitVec.toNat_sub_of_le below]
  omega

/-- The mapping holds what is copied, and that starts at `low`. -/
theorem window_positions (small : k < 32) (signed : count.toNat < 2 ^ 31) (low start : BitVec 32) :
    (windowTransfer (pageMask k) count low (some start)).positions =
      some ((List.range count.toNat).map fun i => low.toNat + i) := by
  have page := page_offset small low
  have parts := page_parts small low
  have inPage : low.toNat % 2 ^ k < 2 ^ 31 := by
    have below := Nat.mod_lt low.toNat (Nat.two_pow_pos k)
    have powers := Nat.pow_le_pow_right (by decide : 0 < 2) (by omega : k ≤ 31)
    omega
  -- the place in the window of byte `i`, which 32 bits hold
  have reach : ∀ i < count.toNat,
      (low - (low &&& pageMask k) + BitVec.ofNat 32 i).toNat = low.toNat % 2 ^ k + i := by
    intro i inside
    rw [BitVec.toNat_add, page, BitVec.toNat_ofNat]
    omega
  have length : (count + (low - (low &&& pageMask k))).toNat = count.toNat + low.toNat % 2 ^ k := by
    rw [BitVec.toNat_add, page]
    omega
  have mapped : (List.range count.toNat).all fun i =>
      start + (low - (low &&& pageMask k)) + BitVec.ofNat 32 i - start <
        count + (low - (low &&& pageMask k)) := by
    rw [List.all_eq_true]
    intro i member
    rw [from_start, decide_eq_true_eq, BitVec.lt_def, length,
      reach i (List.mem_range.mp member)]
    have inside := List.mem_range.mp member
    omega
  simp only [windowTransfer, memcpyPositions, if_pos mapped, Option.some.injEq]
  apply List.map_congr_left
  intro i member
  have wide : ((low &&& pageMask k).setWidth 64).toNat = (low &&& pageMask k).toNat := by
    have bound := (low &&& pageMask k).isLt
    rw [BitVec.toNat_setWidth]
    omega
  rw [from_start, reach i (List.mem_range.mp member), wide]
  omega
end Windows

/-! Reads and writes at one offset. -/
section Exact

/-- The bytes of the file that a transfer is to copy. -/
def fileBytes (offset count : Nat) : List Nat := (List.range count).map fun i => offset + i

/-- Wherever the system maps the windows. -/
structure WindowExact (filePageMask : BitVec 32) (offset count : Nat) : Prop where
  read : ∀ start, (filePread filePageMask (BitVec.ofNat 32 count) (BitVec.ofNat 64 offset)
    (some start)).positions = some (fileBytes offset count)
  written : ∀ start, (filePwrite filePageMask (BitVec.ofNat 32 count) (BitVec.ofNat 64 offset)
    (some start)).positions = some (fileBytes offset count)
  readBack : ∀ start again file buf, buf.length = count → ∃ after,
    (filePwrite filePageMask (BitVec.ofNat 32 count) (BitVec.ofNat 64 offset)
      (some start)).writeTo file buf = some after ∧
    (filePread filePageMask (BitVec.ofNat 32 count) (BitVec.ofNat 64 offset)
      (some again)).readFrom after = some buf

theorem write_all_other (file : Nat → UInt8) (pairs : List (Nat × UInt8)) (position : Nat)
    (other : ∀ pair ∈ pairs, position ≠ pair.1) : writeAll file pairs position = file position := by
  induction pairs generalizing file with
  | nil => rfl
  | cons pair rest ih =>
      have later := ih (Function.update file pair.1 pair.2)
        fun next member => other next (List.mem_cons_of_mem _ member)
      exact later.trans (Function.update_of_ne (other pair List.mem_cons_self) _ _)

theorem write_all_read (file : Nat → UInt8) (positions : List Nat) (buf : List UInt8)
    (distinct : positions.Nodup) (same : buf.length = positions.length) :
    positions.map (writeAll file (positions.zip buf)) = buf := by
  induction positions generalizing file buf with
  | nil => exact (List.length_eq_zero_iff.mp same).symm
  | cons position rest ih =>
      cases buf with
      | nil => cases same
      | cons byte later =>
          obtain ⟨fresh, distinct⟩ := List.nodup_cons.mp distinct
          have here : writeAll (Function.update file position byte) (rest.zip later) position =
              byte := by
            rw [write_all_other _ _ position, Function.update_self]
            rintro pair member rfl
            exact fresh (List.of_mem_zip member).1
          have tail := ih (Function.update file position byte) later distinct (Nat.succ.inj same)
          exact congrArg₂ List.cons here tail

theorem file_bytes_nodup (offset count : Nat) : (fileBytes offset count).Nodup :=
  List.nodup_range.map fun _ _ same => Nat.add_left_cancel same

theorem low_offset (offset : Nat) (signed : offset < 2 ^ 64) :
    ((BitVec.ofNat 64 offset).setWidth 32).toNat = offset % 2 ^ 32 := by
  rw [BitVec.toNat_setWidth, BitVec.toNat_ofNat, Nat.mod_eq_of_lt signed]

variable {k offset count : Nat}

/-- Both copy the bytes at the low part of the offset. -/
theorem positions_low (small : k < 32) (signed : count < 2 ^ 31) (inside : offset < 2 ^ 63 - count)
    (start : BitVec 32) :
    (windowTransfer (pageMask k) (BitVec.ofNat 32 count) ((BitVec.ofNat 64 offset).setWidth 32)
      (some start)).positions = some (fileBytes (offset % 2 ^ 32) count) := by
  have exactly : (BitVec.ofNat 32 count).toNat = count := by
    rw [BitVec.toNat_ofNat]
    omega
  rw [window_positions small (by omega), exactly, low_offset offset (by omega)]
  rfl

/-- What was written at an offset is read there: both functions miss the bytes beyond 4 GiB
in the same way. -/
theorem written_read_back (small : k < 32) (signed : count < 2 ^ 31)
    (inside : offset < 2 ^ 63 - count) (start again : BitVec 32) (file : Nat → UInt8)
    (buf : List UInt8) (length : buf.length = count) : ∃ after,
      (filePwrite (pageMask k) (BitVec.ofNat 32 count) (BitVec.ofNat 64 offset)
        (some start)).writeTo file buf = some after ∧
      (filePread (pageMask k) (BitVec.ofNat 32 count) (BitVec.ofNat 64 offset)
        (some again)).readFrom after = some buf := by
  have low := positions_low small signed inside
  simp only [pread_window, pwrite_window, Transfer.writeTo, Transfer.readFrom, low,
    Option.map_some, Option.some.injEq, exists_eq_left']
  apply write_all_read file _ buf (file_bytes_nodup _ _)
  simp [length, fileBytes]

theorem file_bytes_same_iff (offset other count : Nat) :
    fileBytes offset count = fileBytes other count ↔ offset = other ∨ count = 0 := by
  constructor
  · intro same
    cases count with
    | zero => exact Or.inr rfl
    | succ count =>
        rw [fileBytes, fileBytes, List.range_succ_eq_map] at same
        exact Or.inl (List.cons.inj same).1
  · rintro (rfl | rfl)
    · rfl
    · rfl

/-- The windows hold the bytes of the offset in the first 4 GiB of a file. -/
theorem window_exact_iff (k offset count : Nat) (small : k < 32) (signed : count < 2 ^ 31)
    (inside : offset < 2 ^ 63 - count) :
    WindowExact (pageMask k) offset count ↔ offset < 2 ^ 32 ∨ count = 0 := by
  have low := positions_low small signed inside
  have lowIff : offset % 2 ^ 32 = offset ↔ offset < 2 ^ 32 := by omega
  rw [← lowIff, ← file_bytes_same_iff]
  constructor
  · intro exact_
    have read := exact_.read 0
    rw [pread_window, low] at read
    exact Option.some.inj read
  · intro same
    constructor
    · intro start
      rw [pread_window, low, same]
    · intro start
      rw [pwrite_window, low, same]
    · exact written_read_back small signed inside

theorem window_exact_iff_page :
    (12 < 32 ∧ 3 < 2 ^ 31 ∧ 5000 < 2 ^ 63 - 3) ∧
      (WindowExact (pageMask 12) 5000 3 ↔ 5000 < 2 ^ 32 ∨ 3 = 0) :=
  ⟨by decide, window_exact_iff 12 5000 3 (by decide) (by decide) (by decide)⟩

/-- The byte at 4 GiB is read from the start of the file. -/
theorem four_gib_at_zero :
    (filePread (pageMask 12) 1 (BitVec.ofNat 64 (2 ^ 32)) (some 0x70000000)).positions =
        some [0] ∧
      (filePwrite (pageMask 12) 1 (BitVec.ofNat 64 (2 ^ 32)) (some 0x70000000)).positions =
        some [0] ∧
      ¬ WindowExact (pageMask 12) (2 ^ 32) 1 := by
  have read : (filePread (pageMask 12) 1 (BitVec.ofNat 64 (2 ^ 32)) (some 0x70000000)).positions =
      some [0] := by decide
  refine ⟨read, by decide, fun exact_ => ?_⟩
  have other := read.symm.trans (exact_.read 0x70000000)
  exact absurd other (by decide)
end Exact
end PteSysbench.MmapWindow
