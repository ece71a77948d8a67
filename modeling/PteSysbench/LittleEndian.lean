import Mathlib.Data.Nat.ModEq
import Mathlib.Tactic.Ring

/-!
Fixed-width little-endian numbers and packed records of them. A record is the
concatenation of its fields in declaration order, as a C compiler lays out a
struct without padding. `unpack` reads a record back and refuses a buffer that
is too short, so a decoder built on it never reads past its input.
-/

namespace PteSysbench.LittleEndian

/-- The low `width` bytes of `number`, least significant first. -/
def encode : Nat → Nat → List UInt8
  | 0, _ => []
  | width + 1, number => UInt8.ofNat number :: encode width (number / 256)

def decode : List UInt8 → Nat
  | [] => 0
  | byte :: rest => byte.toNat + 256 * decode rest

@[simp] theorem encode_length (width number : Nat) : (encode width number).length = width := by
  induction width generalizing number with
  | zero => rfl
  | succ width ih => simp [encode, ih]

theorem decode_encode (width number : Nat) :
    decode (encode width number) = number % 256 ^ width := by
  induction width generalizing number with
  | zero => simp [encode, decode, Nat.mod_one]
  | succ width ih =>
      rw [encode, decode, ih, Nat.pow_succ', Nat.mod_mul]
      simp

theorem decode_encode_of_lt (width number : Nat) (fits : number < 256 ^ width) :
    decode (encode width number) = number := by
  rw [decode_encode, Nat.mod_eq_of_lt fits]

/-- Bytes of one length are told apart by their number. -/
theorem decode_injective {first second : List UInt8} (same : first.length = second.length)
    (equal : decode first = decode second) : first = second := by
  induction first generalizing second with
  | nil => exact (List.length_eq_zero_iff.mp same.symm).symm
  | cons byte rest ih =>
      cases second with
      | nil => cases same
      | cons other later =>
          have low := byte.toNat_lt
          have otherLow := other.toNat_lt
          simp only [decode] at equal
          have head : byte = other := UInt8.toNat_inj.mp (by omega)
          rw [head, ih (Nat.succ.inj same) (by omega)]

/-- A wide field is the same bytes as its low part followed by its high part. -/
theorem encode_add (low high number : Nat) :
    encode (low + high) number = encode low number ++ encode high (number / 256 ^ low) := by
  induction low generalizing number with
  | zero => simp [encode]
  | succ low ih =>
      rw [Nat.succ_add, encode, ih, encode, Nat.div_div_eq_div_mul, ← Nat.pow_succ']
      rfl

/-! Records: a layout is the list of field widths. -/
section Record

def pack : List (Nat × Nat) → List UInt8
  | [] => []
  | (width, number) :: rest => encode width number ++ pack rest

def unpack : List Nat → List UInt8 → Option (List Nat × List UInt8)
  | [], bytes => some ([], bytes)
  | width :: rest, bytes =>
      if bytes.length < width then none
      else (unpack rest (bytes.drop width)).map fun tail =>
        (decode (bytes.take width) :: tail.1, tail.2)

def layoutSize (widths : List Nat) : Nat := widths.sum

@[simp] theorem pack_length (fields : List (Nat × Nat)) :
    (pack fields).length = layoutSize (fields.map Prod.fst) := by
  induction fields with
  | nil => rfl
  | cons field rest ih =>
      simp only [pack, List.length_append, encode_length, ih, layoutSize, List.map_cons,
        List.sum_cons]

theorem unpack_cons (width : Nat) (rest : List Nat) (head tail : List UInt8)
    (exactly : head.length = width) :
    unpack (width :: rest) (head ++ tail) =
      (unpack rest tail).map fun read => (decode head :: read.1, read.2) := by
  subst exactly
  simp [unpack]

/-- Reading with the writer's own layout gives every field back, reduced to
its width, and leaves what follows the record. -/
theorem unpack_pack (fields : List (Nat × Nat)) (tail : List UInt8) :
    unpack (fields.map Prod.fst) (pack fields ++ tail) =
      some (fields.map fun field => field.2 % 256 ^ field.1, tail) := by
  induction fields with
  | nil => rfl
  | cons field rest ih =>
      simp only [pack, List.map_cons, List.append_assoc]
      rw [unpack_cons _ _ _ _ (encode_length field.1 field.2), ih, decode_encode]
      rfl

theorem unpack_short (widths : List Nat) (bytes : List UInt8)
    (short : bytes.length < layoutSize widths) : unpack widths bytes = none := by
  induction widths generalizing bytes with
  | nil => simp [layoutSize] at short
  | cons width rest ih =>
      by_cases head : bytes.length < width
      · simp [unpack, head]
      · have tail : (bytes.drop width).length < layoutSize rest := by
          simp only [layoutSize, List.sum_cons, List.length_drop] at short ⊢
          omega
        simp [unpack, head, ih _ tail]
end Record

end PteSysbench.LittleEndian
