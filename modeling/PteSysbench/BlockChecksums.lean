import PteSysbench.Crc32
import PteSysbench.FileValidation

/-!
`file_fill_buffer` and `file_validate_buffer` with the CRC of crc32.c, in either byte order.
The trailer of a block is an `int` and a `long`, read back as `unsigned int` and `size_t`.
-/

namespace PteSysbench.BlockChecksums

open Crc32 LittleEndian
open FileValidation (Checksum trailerLength)

/-! The functions. -/
section Functions
variable (order : ByteOrder)

/-- A number of so many bytes in memory. -/
def stored (width number : Nat) : List UInt8 :=
  match order with
  | .little => encode width number
  | .big => (encode width number).reverse

def loaded (bytes : List UInt8) : Nat :=
  match order with
  | .little => decode bytes
  | .big => decode bytes.reverse

/-- The buffer behind the call; `random i` is the number drawn for the byte `i`. -/
def fileFillBuffer (address : Nat) (random : Nat → UInt8) (len : UInt32) (offset : UInt64) :
    Option (List UInt8) :=
  if len.toNat < trailerLength then none
  else
    let body := (List.range (len.toNat - trailerLength)).map random
    some (body ++ (stored order 4 (crc32 order 0#32 address body).toNat ++
      stored order 8 offset.toNat))

/-- The value that is returned for the bytes of `buf`. -/
def fileValidateBuffer (address : Nat) (buf : List UInt8) (offset : UInt64) : Option Nat :=
  if buf.length < trailerLength then none
  else
    let csOffset := buf.length - trailerLength
    let checksum := crc32 order 0#32 address (buf.take csOffset)
    if checksum.toNat ≠ loaded order ((buf.drop csOffset).take 4) then some 1
    else if offset.toNat ≠ loaded order ((buf.drop (csOffset + 4)).take 8) then some 1
    else some 0

theorem stored_length (width number : Nat) : (stored order width number).length = width := by
  cases order
  all_goals simp [stored]

theorem loaded_stored (width number : Nat) (fits : number < 256 ^ width) :
    loaded order (stored order width number) = number := by
  cases order
  all_goals simp [loaded, stored, decode_encode_of_lt width number fits]

theorem loaded_injective {first second : List UInt8} (same : first.length = second.length)
    (equal : loaded order first = loaded order second) : first = second := by
  cases order with
  | little => exact decode_injective same equal
  | big =>
      have reversed := decode_injective (by simpa using same) equal
      exact List.reverse_injective reversed

end Functions

/-! On a little-endian machine these are the functions that the files were validated with. -/
section LittleEndian

def crcAt (address : Nat) : Checksum := fun buf => ⟨crc32 .little 0#32 address buf⟩

theorem fill_little (address : Nat) (random : Nat → UInt8) (len : UInt32) (offset : UInt64) :
    fileFillBuffer .little address random len offset =
      FileValidation.fileFillBuffer (crcAt address) random len.toNat offset.toNat := rfl

theorem validate_little (address : Nat) (buf : List UInt8) (offset : UInt64) :
    fileValidateBuffer .little address buf offset =
      (FileValidation.fileValidateBuffer (crcAt address) buf offset.toNat).map fun passes =>
        if passes then 0 else 1 := by
  unfold fileValidateBuffer FileValidation.fileValidateBuffer
  by_cases short : buf.length < trailerLength
  · simp [short]
  · simp only [if_neg short, Option.map_some, loaded, crcAt, UInt32.toNat]
    by_cases checksum : (crc32 .little 0#32 address (buf.take (buf.length - trailerLength))).toNat =
        decode ((buf.drop (buf.length - trailerLength)).take 4)
    · by_cases position : offset.toNat =
          decode ((buf.drop (buf.length - trailerLength + 4)).take 8)
      · simp [checksum, position]
      · simp [checksum, position]
    · simp [checksum]

end LittleEndian

/-! A block in its three parts. -/
section Parts
variable (order : ByteOrder) (address : Nat)

theorem validate_parts (body checksum position : List UInt8) (offset : UInt64)
    (four : checksum.length = 4) (eight : position.length = 8) :
    fileValidateBuffer order address (body ++ (checksum ++ position)) offset =
      if (crc32 order 0#32 address body).toNat ≠ loaded order checksum then some 1
      else if offset.toNat ≠ loaded order position then some 1 else some 0 := by
  have length : (body ++ (checksum ++ position)).length = body.length + trailerLength := by
    rw [List.length_append, List.length_append, four, eight]
    rfl
  unfold fileValidateBuffer
  rw [length, if_neg (by omega), Nat.add_sub_cancel]
  simp only [← List.drop_drop, List.take_left, List.drop_left]
  rw [← four, List.take_left, List.drop_left, ← eight, List.take_length]

/-- The trailer of a filled block. -/
def checksumBytes (body : List UInt8) : List UInt8 :=
  stored order 4 (crc32 order 0#32 address body).toNat

theorem checksum_length (body : List UInt8) : (checksumBytes order address body).length = 4 :=
  stored_length order 4 _

theorem position_length (offset : UInt64) : (stored order 8 offset.toNat).length = 8 :=
  stored_length order 8 _

theorem checksum_loaded (body : List UInt8) :
    loaded order (checksumBytes order address body) = (crc32 order 0#32 address body).toNat :=
  loaded_stored order 4 _ (crc32 order 0#32 address body).isLt

theorem position_loaded (offset : UInt64) :
    loaded order (stored order 8 offset.toNat) = offset.toNat :=
  loaded_stored order 8 _ offset.toNat_lt

theorem loaded_set (bytes : List UInt8) (j : Nat) (bound : j < bytes.length) (byte : UInt8)
    (changed : byte ≠ bytes[j]) : loaded order (bytes.set j byte) ≠ loaded order bytes := by
  intro equal
  have same := loaded_injective order List.length_set equal
  have here := List.getElem_set_self (i := j) (l := bytes) (a := byte) (by simpa using bound)
  simp only [same] at here
  exact changed here.symm

end Parts

/-! What a filled block shows. -/
section Detection
variable (order : ByteOrder) (address other : Nat) (body : List UInt8) (offset : UInt64)

/-- The block of a content, as `file_fill_buffer` leaves it. -/
def filled : List UInt8 :=
  body ++ (checksumBytes order address body ++ stored order 8 offset.toNat)

theorem filled_validates :
    fileValidateBuffer order other (filled order address body offset) offset = some 0 := by
  rw [filled, validate_parts order other body _ _ offset (checksum_length _ _ _)
    (position_length _ _), checksum_loaded, position_loaded, crc32_reflected, crc32_reflected,
    if_neg (not_not_intro rfl), if_neg (not_not_intro rfl)]

theorem other_offset_detected (wrong : UInt64) (different : wrong ≠ offset) :
    fileValidateBuffer order other (filled order address body offset) wrong = some 1 := by
  have apart : wrong.toNat ≠ offset.toNat := fun same => different (UInt64.toNat_inj.mp same)
  rw [filled, validate_parts order other body _ _ wrong (checksum_length _ _ _)
    (position_length _ _), checksum_loaded, position_loaded, crc32_reflected, crc32_reflected,
    if_neg (not_not_intro rfl), if_pos apart]

theorem content_detected (i : Nat) (bound : i < body.length) (byte : UInt8)
    (changed : byte ≠ body[i]) :
    fileValidateBuffer order other (body.set i byte ++
      (checksumBytes order address body ++ stored order 8 offset.toNat)) offset = some 1 := by
  have differ := crc32_set order 0#32 other address body i bound byte changed
  rw [validate_parts order other _ _ _ offset (checksum_length _ _ _) (position_length _ _),
    checksum_loaded, if_pos fun same => differ (BitVec.eq_of_toNat_eq same)]

theorem checksum_detected (j : Nat) (bound : j < (checksumBytes order address body).length)
    (byte : UInt8) (changed : byte ≠ (checksumBytes order address body)[j]) :
    fileValidateBuffer order other (body ++
      ((checksumBytes order address body).set j byte ++ stored order 8 offset.toNat)) offset =
        some 1 := by
  have differ := loaded_set order _ j bound byte changed
  rw [checksum_loaded] at differ
  rw [validate_parts order other body _ _ offset
    (List.length_set.trans (checksum_length _ _ _)) (position_length _ _), crc32_reflected]
  rw [crc32_reflected] at differ
  rw [if_pos differ.symm]

theorem position_detected (j : Nat) (bound : j < (stored order 8 offset.toNat).length)
    (byte : UInt8) (changed : byte ≠ (stored order 8 offset.toNat)[j]) :
    fileValidateBuffer order other (body ++
      (checksumBytes order address body ++ (stored order 8 offset.toNat).set j byte)) offset =
        some 1 := by
  have differ := loaded_set order _ j bound byte changed
  rw [position_loaded] at differ
  rw [validate_parts order other body _ _ offset (checksum_length _ _ _)
    (List.length_set.trans (position_length _ _)), checksum_loaded, crc32_reflected,
    crc32_reflected, if_neg (not_not_intro rfl), if_pos differ.symm]

/-- Any one byte of the block, whichever part it is in. -/
theorem change_detected (i : Nat) (bound : i < (filled order address body offset).length)
    (byte : UInt8) (changed : byte ≠ (filled order address body offset)[i]) :
    fileValidateBuffer order other ((filled order address body offset).set i byte) offset =
      some 1 := by
  unfold filled at *
  -- a byte of the contents, of the checksum, or of the offset
  by_cases content : i < body.length
  · rw [List.getElem_append_left content] at changed
    rw [List.set_append_left _ _ content]
    exact content_detected order address other body offset i content byte changed
  · rw [List.getElem_append_right (Nat.not_lt.mp content)] at changed
    rw [List.set_append_right _ _ (Nat.not_lt.mp content)]
    rw [List.length_append] at bound
    by_cases checksum : i - body.length < (checksumBytes order address body).length
    · rw [List.getElem_append_left checksum] at changed
      rw [List.set_append_left _ _ checksum]
      exact checksum_detected order address other body offset _ checksum byte changed
    · rw [List.length_append] at bound
      rw [List.getElem_append_right (Nat.not_lt.mp checksum)] at changed
      rw [List.set_append_right _ _ (Nat.not_lt.mp checksum)]
      exact position_detected order address other body offset _ (by omega) byte changed

/-- A block that `file_fill_buffer` has filled passes at its own offset; with any one byte
changed, or at any other offset, it does not. -/
theorem blocks_tell_changes (random : Nat → UInt8) (len : UInt32)
    (room : trailerLength ≤ len.toNat) :
    ∃ block, fileFillBuffer order address random len offset = some block ∧
      block.length = len.toNat ∧
      fileValidateBuffer order other block offset = some 0 ∧
      (∀ i, ∀ bound : i < block.length, ∀ byte, byte ≠ block.get ⟨i, bound⟩ →
        fileValidateBuffer order other (block.set i byte) offset = some 1) ∧
      ∀ wrong, wrong ≠ offset → fileValidateBuffer order other block wrong = some 1 := by
  refine ⟨filled order address ((List.range (len.toNat - trailerLength)).map random) offset,
    if_neg (Nat.not_lt.mpr room), ?_, filled_validates _ _ _ _ _, ?_, ?_⟩
  · simp only [filled, checksumBytes, List.length_append, stored_length, List.length_map,
      List.length_range]
    have trailer : trailerLength = 12 := rfl
    omega
  · intro i bound byte changed
    exact change_detected order address other _ offset i bound byte changed
  · intro wrong different
    exact other_offset_detected order address other _ offset wrong different

/-- Four bytes of contents in front of the trailer. -/
theorem short_block_tells_changes :
    ∃ block, fileFillBuffer .little 0 (fun i => UInt8.ofNat (i + 1)) 16 7 = some block ∧
      block.length = (16 : UInt32).toNat ∧
      fileValidateBuffer .little 0 block 7 = some 0 ∧
      (∀ i, ∀ bound : i < block.length, ∀ byte, byte ≠ block.get ⟨i, bound⟩ →
        fileValidateBuffer .little 0 (block.set i byte) 7 = some 1) ∧
      ∀ wrong, wrong ≠ 7 → fileValidateBuffer .little 0 block wrong = some 1 :=
  blocks_tell_changes .little 0 0 7 (fun i => UInt8.ofNat (i + 1)) 16 (by decide)

end Detection

end PteSysbench.BlockChecksums
