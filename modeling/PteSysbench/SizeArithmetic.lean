import PteSysbench.FileRequests
import PteSysbench.OptionSizes

/-!
The sizes of the file test between their options and what `parse_arguments` keeps of
them: `file_block_size` is an `int`, and so is the product that becomes
`file_request_size`.
-/

namespace PteSysbench.SizeArithmetic

open FileRequests OptionRegistry OptionValues OptionSizes

/-- The number of bytes an option gives. -/
def bytesOf (opt : OptionEntry) : Nat := bytesGiven (opt.values.headD [])

/-- The options with the two sizes as `sb_get_value_size` returns them. -/
def sized (block total : OptionEntry) (opts : FileOptions) : FileOptions :=
  { opts with
    blockSize := (sbOptToSize block).toNat
    totalSize := (sbOptToSize total).toNat }

/-- Nothing has been truncated or wrapped around, and a file has a byte. -/
structure SizesExact (block total : OptionEntry) (opts : FileOptions) (cfg : FileConfig) :
    Prop where
  block : cfg.sizes.blockSize = bytesOf block
  request : cfg.requestSize = cfg.sizes.blockSize * max 1 opts.mergedRequests
  positive : 0 < cfg.requestSize
  whole : cfg.sizes.totalSize = bytesOf total
  file : 1 ≤ cfg.fileSize
  files : cfg.sizes.numFiles * cfg.fileSize ≤ cfg.sizes.totalSize ∧
    cfg.sizes.totalSize < cfg.sizes.numFiles * (cfg.fileSize + 1)

/-- The request fits in an `int`, the total in a `long long`, and there is a byte for each
file. -/
structure SizesFit (block total : OptionEntry) (opts : FileOptions) : Prop where
  request : bytesOf block * max 1 opts.mergedRequests < 2 ^ 31
  whole : bytesOf total < 2 ^ 63
  files : opts.fileNum % 2 ^ 32 ≤ bytesOf total

theorem opt_to_size_value (opt : OptionEntry) :
    (sbOptToSize opt).toNat = bytesOf opt % 2 ^ 64 := by
  unfold sbOptToSize bytesOf
  cases opt.values with
  | nil => rfl
  | cons value rest =>
      have read : (readSize value).toNat = bytesGiven value % 2 ^ 64 := by
        rw [read_size_eq]
        rfl
      exact read

/-! What the checks behind the conversions leave open. -/
section Conversions

/-- A size that has been reduced twice is the size itself only if it fits. -/
theorem reduced_iff (given kept half modulus : Nat) (double : modulus = 2 * half)
    (divides : modulus ∣ 2 ^ 64) (some_ : 0 < kept)
    (same : (kept : Int) = Int.bmod (given % 2 ^ 64 : Nat) modulus) :
    kept = given ↔ given < half := by
  have positive : 0 < modulus := Nat.pos_of_dvd_of_pos divides (by decide)
  have below : Int.bmod (given % 2 ^ 64 : Nat) modulus < _ := Int.bmod_lt positive
  constructor
  · rintro rfl
    omega
  · intro small
    have most : modulus ≤ 2 ^ 64 := Nat.le_of_dvd (by decide) divides
    have exact_ : Int.bmod (given % 2 ^ 64 : Nat) modulus = (given % 2 ^ 64 : Nat) :=
      Int.bmod_eq_of_le (by omega) (by omega)
    omega

theorem request_exact_iff (blockSize : Nat) (merged : Int) (some_ : 0 < blockSize)
    (int_ : blockSize < 2 ^ 31) (nonneg : 0 ≤ merged) :
    requestSizeOf blockSize merged = blockSize * max 1 merged ↔
      blockSize * max 1 merged < 2 ^ 31 := by
  unfold requestSizeOf
  by_cases merging : 0 < merged
  · have least : max 1 merged = merged := by omega
    rw [if_pos merging, least]
    have positive : 0 < (blockSize : Int) * merged := by positivity
    have below : Int.bmod (blockSize * merged) (2 ^ 32) < _ := Int.bmod_lt (by decide)
    constructor
    · omega
    · intro small
      exact Int.bmod_eq_of_le (by omega) (by omega)
  · have none_ : max 1 merged = 1 := by omega
    rw [if_neg merging, none_]
    omega
end Conversions

/-- Whatever is accepted, its sizes are exact just when they fit. -/
theorem sizes_exact_iff {cmdname : String} {validate : Bool} {threads : Nat} {buffers : Bool}
    (opts : FileOptions) (block total : OptionEntry) {cfg : FileConfig}
    (accepted : parseArguments cmdname validate threads buffers (sized block total opts) =
      .ok cfg) :
    SizesExact block total opts cfg ↔ SizesFit block total opts := by
  have read := parse_arguments_read accepted
  have blockOption : (sized block total opts).blockSize = bytesOf block % 2 ^ 64 :=
    opt_to_size_value block
  have totalOption : (sized block total opts).totalSize = bytesOf total % 2 ^ 64 :=
    opt_to_size_value total
  have exactBlock : cfg.sizes.blockSize = bytesOf block ↔ bytesOf block < 2 ^ 31 :=
    reduced_iff _ _ (2 ^ 31) (2 ^ 32) (by decide) (by decide) cfg.sizes.someBlock
      (by rw [read.block, blockOption])
  have exactTotal : cfg.sizes.totalSize = bytesOf total ↔ bytesOf total < 2 ^ 63 :=
    reduced_iff _ _ (2 ^ 63) (2 ^ 64) (by decide) (by decide) cfg.sizes.someBytes
      (by rw [read.total, totalOption])
  have request : cfg.requestSize = cfg.sizes.blockSize * max 1 opts.mergedRequests ↔
      cfg.sizes.blockSize * max 1 opts.mergedRequests < 2 ^ 31 := by
    rw [read.request]
    exact request_exact_iff _ _ cfg.sizes.someBlock cfg.sizes.blockInt read.merged
  have files : (cfg.sizes.numFiles : Int) = opts.fileNum % 2 ^ 32 := by
    have same := read.files
    simp only [sized] at same
    omega
  have oneByte : 1 ≤ cfg.fileSize ↔ cfg.sizes.numFiles ≤ cfg.sizes.totalSize :=
    Nat.le_div_iff_mul_le cfg.sizes.someFiles |>.trans (by rw [Nat.one_mul])
  constructor
  · intro kept
    have wholeRequest := request.mp kept.request
    rw [kept.block] at wholeRequest
    have someFiles := oneByte.mp kept.file
    rw [kept.whole] at someFiles
    exact ⟨wholeRequest, exactTotal.mp kept.whole, by omega⟩
  · intro fit
    -- a merged request is no smaller than a block
    have once : (bytesOf block : Int) ≤ bytesOf block * max 1 opts.mergedRequests :=
      le_mul_of_one_le_right (by omega) (le_max_left _ _)
    have keptBlock := exactBlock.mpr (by have := fit.request; omega)
    have keptTotal := exactTotal.mpr fit.whole
    have keptRequest := request.mpr (by rw [keptBlock]; exact fit.request)
    have someFiles : 1 ≤ cfg.fileSize := oneByte.mpr (by have := fit.files; omega)
    refine ⟨keptBlock, keptRequest, ?_, keptTotal, someFiles, ?_, total_lt cfg.sizes⟩
    · have someBlock := cfg.sizes.someBlock
      rw [keptRequest]
      positivity
    · exact Nat.mul_div_le _ _

/-- An option with one value. -/
def option (name value : String) : OptionEntry := holding (newOption (text name)) (text value)

def defaults : FileOptions :=
  { fileNum := 128, totalSize := 0, testMode := some "seqwr", ioMode := some "sync",
    mergedRequests := 0, blockSize := 0, extraFlags := [], extraFlagsText := "",
    fsyncFreq := 100, fsyncEnd := true, fsyncAll := false, fsyncMode := "fsync", rwRatio := 3 / 2 }

def run (block total : String) (merged : Int) : Except String FileConfig :=
  parseArguments "run" false 1 true (sized (option "file-block-size" block)
    (option "file-total-size" total) { defaults with mergedRequests := merged })

theorem run_accepts {Part : Type*} (block total : String) (merged : Int)
    (part : FileConfig → Part) (value : Part)
    (found : (run block total merged).map part = .ok value) :
    ∃ cfg, run block total merged = .ok cfg ∧ part cfg = value := by
  cases result : run block total merged with
  | error message =>
      rw [result] at found
      cases found
  | ok cfg =>
      rw [result] at found
      exact ⟨cfg, rfl, Except.ok.inj found⟩

theorem default_sizes_exact :
    ∃ cfg, run "16384" "2G" 0 = .ok cfg ∧
      (SizesExact (option "file-block-size" "16384") (option "file-total-size" "2G") defaults cfg ↔
        SizesFit (option "file-block-size" "16384") (option "file-total-size" "2G") defaults) := by
  obtain ⟨cfg, accepted, _⟩ :=
    run_accepts "16384" "2G" 0 FileConfig.requestSize 16384 (by decide +kernel)
  exact ⟨cfg, accepted, sizes_exact_iff defaults _ _ accepted⟩

/-- A block of 2^32 + 1 bytes is taken for one byte, and 2^20 merged requests of 4 KiB for a
request of none. -/
theorem sizes_wrap :
    (∃ cfg, run "4294967297" "2G" 0 = .ok cfg ∧ cfg.sizes.blockSize = 1 ∧
      ¬ SizesExact (option "file-block-size" "4294967297") (option "file-total-size" "2G")
        { defaults with mergedRequests := 0 } cfg) ∧
    ∃ cfg, run "4K" "2G" 1048576 = .ok cfg ∧ cfg.requestSize = 0 ∧
      ¬ SizesExact (option "file-block-size" "4K") (option "file-total-size" "2G")
        { defaults with mergedRequests := 1048576 } cfg := by
  constructor
  · obtain ⟨cfg, accepted, one⟩ := run_accepts "4294967297" "2G" 0
      (fun cfg => cfg.sizes.blockSize) 1 (by decide +kernel)
    refine ⟨cfg, accepted, one, fun kept => ?_⟩
    have same := kept.block
    rw [one] at same
    exact absurd same (by decide +kernel)
  · obtain ⟨cfg, accepted, none_⟩ := run_accepts "4K" "2G" 1048576
      FileConfig.requestSize 0 (by decide +kernel)
    refine ⟨cfg, accepted, none_, fun kept => ?_⟩
    have positive := kept.positive
    omega
end PteSysbench.SizeArithmetic
