import Mathlib.Logic.Function.Iterate
import Mathlib.Data.BitVec

/-!
Cyclic redundancy checks in reflected form, over any width: the register is shifted to the
right, and the polynomial is added for every one that drops out. A shift is linear, and
injective when the polynomial ends in the top bit, so no change of one byte is lost.
-/

namespace PteSysbench.ReflectedCrc

variable {w : Nat} (poly : BitVec w)

/-! Shifts. -/
section Shifts

def shiftBit (c : BitVec w) : BitVec w :=
  if c.getLsbD 0 then poly ^^^ (c >>> 1) else c >>> 1

def shiftBits (count : Nat) (c : BitVec w) : BitVec w := (shiftBit poly)^[count] c

theorem shift_bit_xor (a b : BitVec w) :
    shiftBit poly (a ^^^ b) = shiftBit poly a ^^^ shiftBit poly b := by
  unfold shiftBit
  rw [BitVec.getLsbD_xor, BitVec.ushiftRight_xor_distrib]
  cases a.getLsbD 0 <;> cases b.getLsbD 0
  case false.false => rfl
  case true.true =>
    -- the two polynomials cancel
    simp only [bne_self_eq_false, Bool.false_eq_true, ↓reduceIte]
    rw [BitVec.xor_comm poly (a >>> 1), BitVec.xor_assoc, ← BitVec.xor_assoc poly poly,
      BitVec.xor_self, BitVec.zero_xor]
  all_goals
    simp only [Bool.false_xor, Bool.true_xor, Bool.not_false, Bool.false_eq_true, ↓reduceIte]
    ac_rfl

theorem shift_bits_succ (count : Nat) (c : BitVec w) :
    shiftBits poly (count + 1) c = shiftBits poly count (shiftBit poly c) := rfl

theorem shift_bits_xor (count : Nat) (a b : BitVec w) :
    shiftBits poly count (a ^^^ b) = shiftBits poly count a ^^^ shiftBits poly count b := by
  induction count generalizing a b with
  | zero => rfl
  | succ count ih => rw [shift_bits_succ, shift_bit_xor, ih, shift_bits_succ, shift_bits_succ]

theorem shift_bits_add (first second : Nat) (c : BitVec w) :
    shiftBits poly (first + second) c = shiftBits poly first (shiftBits poly second c) :=
  Function.iterate_add_apply _ first second c

/-- A clear low bit drops out without a trace. -/
theorem shift_bit_clear (c : BitVec w) (clear : c.getLsbD 0 = false) :
    shiftBit poly c = c >>> 1 := by
  rw [shiftBit, clear]
  rfl

theorem shift_bits_clear (count : Nat) (c : BitVec w)
    (clear : ∀ i < count, c.getLsbD i = false) : shiftBits poly count c = c >>> count := by
  induction count generalizing c with
  | zero => exact (BitVec.ushiftRight_zero c).symm
  | succ count ih =>
      have low := clear 0 (Nat.succ_pos count)
      have rest : ∀ i < count, (c >>> 1).getLsbD i = false := by
        intro i below
        rw [BitVec.getLsbD_ushiftRight]
        exact clear (1 + i) (by omega)
      rw [shift_bits_succ, shift_bit_clear poly c low, ih _ rest, ← BitVec.shiftRight_add,
        Nat.add_comm]

/-- Only zero shifts to zero. -/
theorem shift_bit_eq_zero (top : poly.msb = true) (c : BitVec w)
    (zero : shiftBit poly c = 0#w) : c = 0#w := by
  have positive : 0 < w := by
    by_contra none_
    obtain rfl : w = 0 := by omega
    simp [BitVec.msb_eq_getLsbD_last] at top
  rw [shiftBit] at zero
  split at zero
  next odd =>
    -- the top bit of the polynomial meets none
    have last := congrArg BitVec.msb zero
    have none_ : (c >>> 1).msb = false := by
      rw [BitVec.msb_eq_getLsbD_last, BitVec.getLsbD_ushiftRight]
      exact BitVec.getLsbD_of_ge c _ (by omega)
    rw [BitVec.msb_xor, top, none_] at last
    simp at last
  next even =>
    apply BitVec.eq_of_getLsbD_eq
    intro i bound
    rw [BitVec.getLsbD_zero]
    cases i with
    | zero => simpa using even
    | succ i =>
        have bit := congrArg (BitVec.getLsbD · i) zero
        simpa [BitVec.getLsbD_ushiftRight, Nat.add_comm] using bit

theorem shift_bit_injective (top : poly.msb = true) : Function.Injective (shiftBit poly) := by
  intro a b same
  have zero : shiftBit poly (a ^^^ b) = 0#w := by rw [shift_bit_xor, same, BitVec.xor_self]
  exact BitVec.xor_eq_zero_iff.mp (shift_bit_eq_zero poly top _ zero)

theorem shift_bits_injective (top : poly.msb = true) (count : Nat) :
    Function.Injective (shiftBits poly count) :=
  (shift_bit_injective poly top).iterate count

end Shifts

/-! Bytes. -/
section Bytes

def feed (c : BitVec w) (byte : UInt8) : BitVec w :=
  shiftBits poly 8 (c ^^^ byte.toBitVec.setWidth w)

def crcFrom (c : BitVec w) (bytes : List UInt8) : BitVec w := bytes.foldl (feed poly) c

theorem feed_state_injective (top : poly.msb = true) (byte : UInt8) :
    Function.Injective (feed poly · byte) := by
  intro a b same
  exact BitVec.xor_left_inj _ |>.mp (shift_bits_injective poly top 8 same)

theorem feed_byte_injective (top : poly.msb = true) (wide : 8 ≤ w) (c : BitVec w) :
    Function.Injective (feed poly c) := by
  intro a b same
  have words := BitVec.xor_right_inj _ |>.mp (shift_bits_injective poly top 8 same)
  have back := congrArg (BitVec.setWidth 8) words
  rw [BitVec.setWidth_setWidth_of_le _ wide, BitVec.setWidth_setWidth_of_le _ wide,
    BitVec.setWidth_eq, BitVec.setWidth_eq] at back
  exact UInt8.toBitVec_inj.mp back

theorem crc_state_injective (top : poly.msb = true) (bytes : List UInt8) :
    Function.Injective (crcFrom poly · bytes) := by
  induction bytes with
  | nil => exact fun _ _ same => same
  | cons byte rest ih => exact ih.comp (feed_state_injective poly top byte)

/-- A CRC detects every change of one byte. -/
theorem crc_from_set (top : poly.msb = true) (wide : 8 ≤ w) (bytes : List UInt8) (i : Nat)
    (bound : i < bytes.length) (byte : UInt8) (changed : byte ≠ bytes[i]) (c : BitVec w) :
    crcFrom poly c (bytes.set i byte) ≠ crcFrom poly c bytes := by
  induction bytes generalizing i c with
  | nil => exact absurd bound (Nat.not_lt_zero i)
  | cons first rest ih =>
      cases i with
      | zero =>
          intro same
          exact changed
            (feed_byte_injective poly top wide c (crc_state_injective poly top rest same))
      | succ i => exact ih i (by simpa using bound) (by simpa using changed) _

end Bytes

/-! Several bytes at a time. -/
section Words

/-- The bytes as a word, least significant first. -/
def load : List UInt8 → BitVec w
  | [] => 0#w
  | byte :: rest => byte.toBitVec.setWidth w ^^^ (load rest <<< 8)

theorem load_high (bytes : List UInt8) (i : Nat) (past : 8 * bytes.length ≤ i) :
    (load bytes : BitVec w).getLsbD i = false := by
  induction bytes generalizing i with
  | nil => exact BitVec.getLsbD_zero
  | cons byte rest ih =>
      rw [List.length_cons] at past
      have none_ : byte.toBitVec.getLsbD i = false := BitVec.getLsbD_of_ge _ i (by omega)
      rw [load, BitVec.getLsbD_xor, BitVec.getLsbD_setWidth, none_, BitVec.getLsbD_shiftLeft,
        ih (i - 8) (by omega)]
      simp

/-- What was moved up by `count` bits comes back down. -/
theorem shift_bits_moved (count : Nat) (c : BitVec w)
    (high : ∀ i, w ≤ count + i → c.getLsbD i = false) :
    shiftBits poly count (c <<< count) = c := by
  rw [shift_bits_clear]
  · apply BitVec.eq_of_getLsbD_eq
    intro i _
    rw [BitVec.getLsbD_ushiftRight, BitVec.getLsbD_shiftLeft, Nat.add_sub_cancel_left]
    by_cases inside : count + i < w
    · simp [inside]
    · simp [high i (by omega)]
  · intro i below
    simp [BitVec.getLsbD_shiftLeft, below]

theorem crc_from_load (bytes : List UInt8) (fits : 8 * bytes.length ≤ w) (c : BitVec w) :
    crcFrom poly c bytes = shiftBits poly (8 * bytes.length) (c ^^^ load bytes) := by
  induction bytes generalizing c with
  | nil => exact (BitVec.xor_zero).symm
  | cons byte rest ih =>
      rw [List.length_cons] at fits
      have moved := shift_bits_moved poly 8 (load rest : BitVec w)
        fun i past => load_high rest i (by omega)
      calc crcFrom poly c (byte :: rest)
          = shiftBits poly (8 * rest.length) (feed poly c byte ^^^ load rest) :=
            ih (by omega) _
        _ = shiftBits poly (8 * rest.length)
              (shiftBits poly 8 (c ^^^ byte.toBitVec.setWidth w ^^^ (load rest <<< 8))) := by
            rw [shift_bits_xor poly 8, moved, feed]
        _ = shiftBits poly (8 * (byte :: rest).length) (c ^^^ load (byte :: rest)) := by
            rw [← shift_bits_add, List.length_cons, load, BitVec.xor_assoc, Nat.mul_succ]

theorem low_byte_mask (i : Nat) : (255#w).getLsbD i = (decide (i < w) && decide (i < 8)) := by
  rw [BitVec.getLsbD_ofNat, show 255 = 2 ^ 8 - 1 by rfl, Nat.testBit_two_pow_sub_one]

/-- The lowest byte goes through the register alone: an entry of a table takes its place. -/
theorem shift_bits_split (count : Nat) (c : BitVec w) :
    shiftBits poly (count + 8) c =
      shiftBits poly (count + 8) (c &&& 255#w) ^^^ shiftBits poly count (c >>> 8) := by
  have parts : c = (c &&& 255#w) ^^^ ((c >>> 8) <<< 8) := by
    apply BitVec.eq_of_getLsbD_eq
    intro i bound
    rw [BitVec.getLsbD_xor, BitVec.getLsbD_and, low_byte_mask, BitVec.getLsbD_shiftLeft,
      BitVec.getLsbD_ushiftRight]
    by_cases low : i < 8
    · simp [low, bound]
    · simp [low, bound, show 8 + (i - 8) = i by omega]
  have high := shift_bits_moved poly 8 (c >>> 8) fun i past => by
    rw [BitVec.getLsbD_ushiftRight]
    exact BitVec.getLsbD_of_ge c _ past
  calc shiftBits poly (count + 8) c
      = shiftBits poly (count + 8) ((c &&& 255#w) ^^^ ((c >>> 8) <<< 8)) := by rw [← parts]
    _ = _ := by rw [shift_bits_xor, shift_bits_add poly count 8 (_ <<< _), high]

end Words

end PteSysbench.ReflectedCrc
