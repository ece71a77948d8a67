import PteSysbench.CrcTable
import PteSysbench.ReflectedCrc
import Mathlib.Data.List.GetD

/-!
crc32.c with `BYFOUR` and the tables of crc32tbl.h. After the bytes in front of a four-byte
boundary both byte orders take eight words in a turn, then single words, then the rest byte
by byte; the big-endian register is the little-endian one with its bytes reversed. All of it
computes the reflected CRC of the polynomial 0xedb88320.
-/

namespace PteSysbench.Crc32

open CrcTable ReflectedCrc

/-! The functions. -/
section Functions

def polynomial : BitVec 32 := 0xedb88320#32

/-- `crc_table[k][index]` as `u4`. -/
def entry (k : Nat) (index : BitVec 32) : BitVec 32 :=
  .ofNat 32 ((crcTable.getD k []).getD index.toNat 0)

/-- `REV`. -/
def rev (w : BitVec 32) : BitVec 32 :=
  (w >>> 24) + ((w >>> 8) &&& 0xff00#32) + ((w &&& 0xff00#32) <<< 8) + ((w &&& 0xff#32) <<< 24)

/-- The lookups of `DOLIT4`, with the word added to `c`. -/
def lit4 (c : BitVec 32) : BitVec 32 :=
  entry 3 (c &&& 0xff#32) ^^^ entry 2 ((c >>> 8) &&& 0xff#32) ^^^
    entry 1 ((c >>> 16) &&& 0xff#32) ^^^ entry 0 (c >>> 24)

/-- The lookups of `DOBIG4`. -/
def big4 (c : BitVec 32) : BitVec 32 :=
  entry 4 (c &&& 0xff#32) ^^^ entry 5 ((c >>> 8) &&& 0xff#32) ^^^
    entry 6 ((c >>> 16) &&& 0xff#32) ^^^ entry 7 (c >>> 24)

/-- The step for one byte, and the one for the four bytes at `buf4`. -/
structure Steps where
  byte : BitVec 32 → UInt8 → BitVec 32
  word : BitVec 32 → List UInt8 → BitVec 32

def littleSteps : Steps :=
  { byte := fun c b => entry 0 ((c ^^^ b.toBitVec.setWidth 32) &&& 0xff#32) ^^^ (c >>> 8)
    word := fun c bytes => lit4 (c ^^^ load bytes) }

def bigSteps : Steps :=
  { byte := fun c b => entry 4 ((c >>> 24) ^^^ b.toBitVec.setWidth 32) ^^^ (c <<< 8)
    word := fun c bytes => big4 (c ^^^ rev (load bytes)) }

variable (steps : Steps)

/-- `while (len && ((ptrdiff_t)buf & 3))`. -/
def alignLoop : Nat → List UInt8 → BitVec 32 → BitVec 32 × List UInt8
  | _, [], c => (c, [])
  | address, b :: rest, c =>
      if address % 4 ≠ 0 then alignLoop (address + 1) rest (steps.byte c b) else (c, b :: rest)

/-- So many words one after the other. -/
def words : Nat → List UInt8 → BitVec 32 → BitVec 32
  | 0, _, c => c
  | count + 1, buf, c => words count (buf.drop 4) (steps.word c (buf.take 4))

/-- `while (len >= 4 * count)`, for `count` one more than `last`. -/
def wordLoop (last : Nat) (buf : List UInt8) (c : BitVec 32) : BitVec 32 × List UInt8 :=
  if 4 * (last + 1) ≤ buf.length then
    wordLoop last (buf.drop (4 * (last + 1))) (words steps (last + 1) buf c)
  else (c, buf)
termination_by buf.length
decreasing_by
  rw [List.length_drop]
  omega

/-- The loops over the `len` bytes at `address`. -/
def crcLoops (address : Nat) (buf : List UInt8) (c : BitVec 32) : BitVec 32 :=
  let aligned := alignLoop steps address buf c
  let eights := wordLoop steps 7 aligned.2 aligned.1
  let ones := wordLoop steps 0 eights.2 eights.1
  ones.2.foldl steps.byte ones.1

inductive ByteOrder where
  | little
  | big

/-- `crc32` through `crc32_little` or `crc32_big`. -/
def crc32 (order : ByteOrder) (crc : BitVec 32) (address : Nat) (buf : List UInt8) : BitVec 32 :=
  match order with
  | .little => ~~~ crcLoops littleSteps address buf (~~~ crc)
  | .big => rev (~~~ crcLoops bigSteps address buf (~~~ rev crc))

end Functions

/-! The loops take the bytes in order. -/
section Loops
variable {steps : Steps}

def WordIsBytes (steps : Steps) : Prop :=
  ∀ c bytes, bytes.length = 4 → steps.word c bytes = bytes.foldl steps.byte c

theorem align_loop_fold (address : Nat) (buf : List UInt8) (c : BitVec 32) :
    (alignLoop steps address buf c).2.foldl steps.byte (alignLoop steps address buf c).1 =
      buf.foldl steps.byte c := by
  induction buf generalizing address c with
  | nil => rfl
  | cons b rest ih =>
      rw [alignLoop]
      split
      · exact ih (address + 1) (steps.byte c b)
      · rfl

theorem words_fold (word : WordIsBytes steps) (count : Nat) (buf : List UInt8) (c : BitVec 32)
    (long : 4 * count ≤ buf.length) :
    (buf.drop (4 * count)).foldl steps.byte (words steps count buf c) =
      buf.foldl steps.byte c := by
  induction count generalizing buf c with
  | zero => rfl
  | succ count ih =>
      have rest : 4 * count ≤ (buf.drop 4).length := by
        rw [List.length_drop]
        omega
      have later := ih (buf.drop 4) (steps.word c (buf.take 4)) rest
      rw [List.drop_drop, show 4 + 4 * count = 4 * (count + 1) by omega] at later
      rw [words, later, word c (buf.take 4) (by rw [List.length_take]; omega), ← List.foldl_append,
        List.take_append_drop]

theorem word_loop_fold (word : WordIsBytes steps) (last : Nat) (buf : List UInt8)
    (c : BitVec 32) :
    (wordLoop steps last buf c).2.foldl steps.byte (wordLoop steps last buf c).1 =
      buf.foldl steps.byte c := by
  induction buf, c using wordLoop.induct steps last with
  | case1 buf c long ih =>
      rw [wordLoop, if_pos long, ih]
      exact words_fold word (last + 1) buf c long
  | case2 buf c short => rw [wordLoop, if_neg short]

theorem crc_loops_fold (word : WordIsBytes steps) (address : Nat) (buf : List UInt8)
    (c : BitVec 32) : crcLoops steps address buf c = buf.foldl steps.byte c := by
  simp only [crcLoops]
  rw [word_loop_fold word, word_loop_fold word, align_loop_fold]

end Loops

/-! The tables hold what the register would shift. -/
section Tables

/-- A table of all values of a function of the entries of another. -/
def mapTable (f : BitVec 32 → BitVec 32) (table : List Nat) : List Nat :=
  table.map fun n => (f (.ofNat 32 n)).toNat

theorem first_table :
    crcTable.getD 0 [] = mapTable (shiftBits polynomial 8) (List.range 256) := by
  decide +kernel

theorem next_tables : ∀ k < 3,
    crcTable.getD (k + 1) [] = mapTable (shiftBits polynomial 8) (crcTable.getD k []) := by
  decide +kernel

theorem reversed_tables : ∀ k < 4,
    crcTable.getD (k + 4) [] = mapTable rev (crcTable.getD k []) := by
  decide +kernel

theorem word_of_nat (c : BitVec 32) : BitVec.ofNat 32 c.toNat = c := by
  rw [BitVec.ofNat_toNat, BitVec.setWidth_eq]

theorem mapped_entry (f : BitVec 32 → BitVec 32) (zero : f 0#32 = 0#32) (k other : Nat)
    (mapped : crcTable.getD other [] = mapTable f (crcTable.getD k [])) (index : BitVec 32) :
    entry other index = f (entry k index) := by
  have outside : (f (.ofNat 32 0)).toNat = 0 := congrArg BitVec.toNat zero
  rw [entry, mapped, mapTable, ← outside, List.getD_map, word_of_nat, entry]

theorem entry_shift (k : Nat) (among : k < 4) (index : BitVec 32) (byte : index.toNat < 256) :
    entry k index = shiftBits polynomial (8 * k + 8) index := by
  induction k with
  | zero =>
      have listed : index.toNat < (mapTable (shiftBits polynomial 8) (List.range 256)).length := by
        simpa [mapTable] using byte
      rw [entry, first_table, List.getD_eq_getElem _ _ listed]
      simp only [mapTable, List.getElem_map, List.getElem_range, word_of_nat]
  | succ k ih =>
      rw [mapped_entry _ (by decide) k (k + 1) (next_tables k (by omega)), ih (by omega),
        ← shift_bits_add]
      congr 1
      omega

theorem entry_reversed (k : Nat) (among : k < 4) (index : BitVec 32) :
    entry (k + 4) index = rev (entry k index) :=
  mapped_entry rev (by decide) k (k + 4) (reversed_tables k among) index

theorem masked_byte (c : BitVec 32) : (c &&& 0xff#32).toNat < 256 := by
  rw [BitVec.toNat_and]
  exact Nat.lt_succ_of_le Nat.and_le_right

end Tables

/-! Both byte orders are the register. -/
section Register

theorem byte_dropped (b : UInt8) : (b.toBitVec.setWidth 32) >>> 8 = 0#32 := by
  apply BitVec.eq_of_toNat_eq
  have := b.toBitVec.isLt
  simp only [BitVec.toNat_ushiftRight, BitVec.toNat_setWidth, BitVec.toNat_ofNat]
  omega

theorem little_byte : littleSteps.byte = feed polynomial := by
  funext c b
  have parts := shift_bits_split polynomial 0 (c ^^^ b.toBitVec.setWidth 32)
  rw [BitVec.ushiftRight_xor_distrib, byte_dropped, BitVec.xor_zero] at parts
  exact (congrArg (· ^^^ (c >>> 8)) (entry_shift 0 (by decide) _ (masked_byte _))).trans parts.symm

theorem top_byte (c : BitVec 32) : (c >>> 24).toNat < 256 := by
  rw [BitVec.toNat_ushiftRight]
  have := c.isLt
  omega

/-- Four lookups shift a word out of the register. -/
theorem lit4_shift (c : BitVec 32) : lit4 c = shiftBits polynomial 32 c := by
  have first := shift_bits_split polynomial 24 c
  have second := shift_bits_split polynomial 16 (c >>> 8)
  have third := shift_bits_split polynomial 8 (c >>> 16)
  rw [← BitVec.shiftRight_add] at second third
  rw [lit4, entry_shift 3 (by decide) _ (masked_byte _),
    entry_shift 2 (by decide) _ (masked_byte _), entry_shift 1 (by decide) _ (masked_byte _),
    entry_shift 0 (by decide) _ (top_byte c)]
  rw [first, second, third, BitVec.xor_assoc, BitVec.xor_assoc]

theorem little_word : WordIsBytes littleSteps := by
  intro c bytes four
  have fed := crc_from_load polynomial bytes (by omega) c
  rw [four] at fed
  rw [little_byte]
  exact (lit4_shift (c ^^^ load bytes)).trans fed.symm

end Register

/-! Reversed bytes. -/
section Reversal

/-- The bit that `REV` moves to `i`. -/
def revIndex (i : Nat) : Nat := (3 - i / 8) * 8 + i % 8

theorem mid_byte_mask (i : Nat) (bound : i < 32) :
    (0xff00#32).getLsbD i = decide (8 ≤ i ∧ i < 16) := by
  revert i
  decide

/-- Words without a common bit are added bit by bit. -/
theorem add_bit (a b : BitVec 32) (apart : ∀ i < 32, (a.getLsbD i && b.getLsbD i) = false)
    (i : Nat) : (a + b).getLsbD i = (a.getLsbD i || b.getLsbD i) := by
  have none_ : a &&& b = 0#32 := by
    apply BitVec.eq_of_getLsbD_eq
    intro i bound
    rw [BitVec.getLsbD_and, apart i bound, BitVec.getLsbD_zero]
  rw [BitVec.add_eq_or_of_and_eq_zero a b none_, BitVec.getLsbD_or]

/-- The first of the bytes that `REV` adds, each in its new place. -/
theorem first_bit (c : BitVec 32) (i : Nat) :
    (c >>> 24).getLsbD i = (decide (i < 8) && c.getLsbD (24 + i)) := by
  rw [BitVec.getLsbD_ushiftRight]
  by_cases low : i < 8
  · simp [low]
  · simp [low, BitVec.getLsbD_of_ge c (24 + i) (by omega)]

theorem second_bit (c : BitVec 32) (i : Nat) (bound : i < 32) :
    ((c >>> 8) &&& 0xff00#32).getLsbD i = (decide (8 ≤ i ∧ i < 16) && c.getLsbD (8 + i)) := by
  rw [BitVec.getLsbD_and, BitVec.getLsbD_ushiftRight, mid_byte_mask i bound, Bool.and_comm]

theorem third_bit (c : BitVec 32) (i : Nat) (bound : i < 32) :
    ((c &&& 0xff00#32) <<< 8).getLsbD i = (decide (16 ≤ i ∧ i < 24) && c.getLsbD (i - 8)) := by
  rw [BitVec.getLsbD_shiftLeft, BitVec.getLsbD_and, mid_byte_mask (i - 8) (by omega)]
  by_cases here : 16 ≤ i ∧ i < 24
  · simp [here, bound, show 8 ≤ i - 8 by omega, show i - 8 < 16 by omega, show ¬ i < 8 by omega]
  · by_cases low : i < 8
    · simp [low, show ¬ 16 ≤ i by omega]
    · simp [here, low, show ¬ (8 ≤ i - 8 ∧ i - 8 < 16) by omega]

theorem fourth_bit (c : BitVec 32) (i : Nat) (bound : i < 32) :
    ((c &&& 0xff#32) <<< 24).getLsbD i = (decide (24 ≤ i) && c.getLsbD (i - 24)) := by
  rw [BitVec.getLsbD_shiftLeft, BitVec.getLsbD_and, low_byte_mask]
  by_cases here : 24 ≤ i
  · simp [here, bound, show i - 24 < 8 by omega, show i - 24 < 32 by omega,
      show ¬ i < 24 by omega]
  · simp [here, show i < 24 by omega]

theorem rev_bit (c : BitVec 32) (i : Nat) (bound : i < 32) :
    (rev c).getLsbD i = c.getLsbD (revIndex i) := by
  -- the four bytes do not overlap, so each sum is a disjunction of bits
  have two := add_bit (c >>> 24) ((c >>> 8) &&& 0xff00#32) fun i bound => by
    rw [first_bit, second_bit c i bound]
    by_cases low : i < 8
    · simp [low, show ¬ 8 ≤ i by omega]
    · simp [low]
  have three := add_bit (c >>> 24 + ((c >>> 8) &&& 0xff00#32)) ((c &&& 0xff00#32) <<< 8)
    fun i bound => by
      rw [two, first_bit, second_bit c i bound, third_bit c i bound]
      by_cases low : i < 16
      · simp [show ¬ 16 ≤ i by omega]
      · simp [low, show ¬ i < 8 by omega]
  have four := add_bit (c >>> 24 + ((c >>> 8) &&& 0xff00#32) + ((c &&& 0xff00#32) <<< 8))
    ((c &&& 0xff#32) <<< 24) fun i bound => by
      rw [three, two, first_bit, second_bit c i bound, third_bit c i bound, fourth_bit c i bound]
      by_cases low : i < 24
      · simp [show ¬ 24 ≤ i by omega]
      · simp [low, show ¬ i < 8 by omega, show ¬ i < 16 by omega]
  rw [rev, four, three, two, first_bit, second_bit c i bound, third_bit c i bound,
    fourth_bit c i bound, revIndex]
  by_cases one : i < 8
  · simp [one, show ¬ 8 ≤ i by omega, show ¬ 16 ≤ i by omega, show ¬ 24 ≤ i by omega,
      show (3 - i / 8) * 8 + i % 8 = 24 + i by omega]
  · by_cases two : i < 16
    · simp [one, two, show 8 ≤ i by omega, show ¬ 16 ≤ i by omega, show ¬ 24 ≤ i by omega,
        show (3 - i / 8) * 8 + i % 8 = 8 + i by omega]
    · by_cases three : i < 24
      · simp [one, two, three, show 16 ≤ i by omega, show ¬ 24 ≤ i by omega,
          show (3 - i / 8) * 8 + i % 8 = i - 8 by omega]
      · simp [one, two, three, show 24 ≤ i by omega,
          show (3 - i / 8) * 8 + i % 8 = i - 24 by omega]

theorem rev_of_bits (a b : BitVec 32)
    (same : ∀ i < 32, a.getLsbD i = b.getLsbD (revIndex i)) : a = rev b := by
  apply BitVec.eq_of_getLsbD_eq
  intro i bound
  rw [same i bound, rev_bit b i bound]

theorem rev_rev (c : BitVec 32) : rev (rev c) = c := by
  refine (rev_of_bits c (rev c) fun i bound => ?_).symm
  have moved : revIndex i < 32 := by
    unfold revIndex
    omega
  rw [rev_bit c _ moved]
  congr 1
  unfold revIndex
  omega

theorem rev_xor (a b : BitVec 32) : rev (a ^^^ b) = rev a ^^^ rev b := by
  refine (rev_of_bits _ _ fun i bound => ?_).symm
  rw [BitVec.getLsbD_xor, BitVec.getLsbD_xor, rev_bit a i bound, rev_bit b i bound]

theorem rev_not (c : BitVec 32) : rev (~~~ c) = ~~~ rev c := by
  refine (rev_of_bits _ _ fun i bound => ?_).symm
  have moved : revIndex i < 32 := by
    unfold revIndex
    omega
  rw [BitVec.getLsbD_not, BitVec.getLsbD_not, rev_bit c i bound, decide_eq_true bound,
    decide_eq_true moved]

theorem rev_shift_left (c : BitVec 32) : rev c <<< 8 = rev (c >>> 8) := by
  refine rev_of_bits _ _ fun i bound => ?_
  rw [BitVec.getLsbD_shiftLeft, BitVec.getLsbD_ushiftRight, rev_bit c _ (by omega)]
  by_cases low : i < 8
  · have past : 32 ≤ 8 + revIndex i := by
      unfold revIndex
      omega
    simp [low, BitVec.getLsbD_of_ge c _ past]
  · have moved : revIndex (i - 8) = 8 + revIndex i := by
      unfold revIndex
      omega
    simp [low, bound, moved]

/-- The byte of the reversed word that is `count` from one end is as far from the other. -/
theorem rev_byte (c : BitVec 32) (count : Nat) (byte : count < 4) :
    (rev c >>> (8 * count)) &&& 0xff#32 = (c >>> (24 - 8 * count)) &&& 0xff#32 := by
  apply BitVec.eq_of_getLsbD_eq
  intro i bound
  rw [BitVec.getLsbD_and, BitVec.getLsbD_and, low_byte_mask, BitVec.getLsbD_ushiftRight,
    BitVec.getLsbD_ushiftRight]
  by_cases low : i < 8
  · have moved : revIndex (8 * count + i) = 24 - 8 * count + i := by
      unfold revIndex
      omega
    rw [rev_bit c _ (by omega), moved]
  · simp [low]

end Reversal

/-! The big-endian register is the reversed one. -/
section BigEndian

theorem top_masked (c : BitVec 32) : (c >>> 24) &&& 0xff#32 = c >>> 24 := by
  apply BitVec.eq_of_getLsbD_eq
  intro i bound
  rw [BitVec.getLsbD_and, low_byte_mask, BitVec.getLsbD_ushiftRight]
  by_cases low : i < 8
  · simp [low, bound]
  · simp [low, BitVec.getLsbD_of_ge c (24 + i) (by omega)]

theorem rev_low (c : BitVec 32) : rev c >>> 24 = c &&& 0xff#32 := by
  have moved := rev_byte c 3 (by decide)
  rw [show 24 - 8 * 3 = 0 from rfl, BitVec.ushiftRight_zero] at moved
  exact (top_masked (rev c)).symm.trans moved

theorem byte_masked (b : UInt8) : b.toBitVec.setWidth 32 &&& 0xff#32 = b.toBitVec.setWidth 32 := by
  apply BitVec.eq_of_getLsbD_eq
  intro i bound
  rw [BitVec.getLsbD_and, low_byte_mask, BitVec.getLsbD_setWidth]
  by_cases low : i < 8
  · simp [low, bound]
  · simp [low, BitVec.getLsbD_of_ge b.toBitVec i (by omega)]

theorem masked_xor (a b mask : BitVec 32) : (a ^^^ b) &&& mask = (a &&& mask) ^^^ (b &&& mask) := by
  apply BitVec.eq_of_getLsbD_eq
  intro i _
  simp only [BitVec.getLsbD_and, BitVec.getLsbD_xor, Bool.and_xor_distrib_right]

theorem big_byte (c : BitVec 32) (b : UInt8) :
    bigSteps.byte (rev c) b = rev (littleSteps.byte c b) := by
  have index : (rev c >>> 24) ^^^ b.toBitVec.setWidth 32 =
      (c ^^^ b.toBitVec.setWidth 32) &&& 0xff#32 := by
    rw [rev_low, masked_xor, byte_masked]
  calc bigSteps.byte (rev c) b
      = entry (0 + 4) ((c ^^^ b.toBitVec.setWidth 32) &&& 0xff#32) ^^^ (rev c <<< 8) := by
        rw [← index]
        rfl
    _ = rev (littleSteps.byte c b) := by
        rw [entry_reversed 0 (by decide), rev_shift_left, ← rev_xor]
        rfl

theorem xor_reversed (a b c d : BitVec 32) : a ^^^ b ^^^ c ^^^ d = d ^^^ c ^^^ b ^^^ a := by
  ac_rfl

theorem big4_reversed (c : BitVec 32) : big4 (rev c) = rev (lit4 c) := by
  have first : rev c &&& 0xff#32 = c >>> 24 := by
    have moved := rev_byte c 0 (by decide)
    rwa [Nat.mul_zero, BitVec.ushiftRight_zero, Nat.sub_zero, top_masked] at moved
  have second : (rev c >>> 8) &&& 0xff#32 = (c >>> 16) &&& 0xff#32 := rev_byte c 1 (by decide)
  have third : (rev c >>> 16) &&& 0xff#32 = (c >>> 8) &&& 0xff#32 := rev_byte c 2 (by decide)
  rw [big4, first, second, third, rev_low, entry_reversed 0 (by decide),
    entry_reversed 1 (by decide), entry_reversed 2 (by decide), entry_reversed 3 (by decide), lit4,
    rev_xor, rev_xor, rev_xor]
  exact xor_reversed _ _ _ _

theorem big_word (c : BitVec 32) (bytes : List UInt8) :
    bigSteps.word (rev c) bytes = rev (littleSteps.word c bytes) :=
  (congrArg big4 (rev_xor c (load bytes)).symm).trans (big4_reversed _)

theorem big_fold (buf : List UInt8) (c : BitVec 32) :
    buf.foldl bigSteps.byte (rev c) = rev (buf.foldl littleSteps.byte c) := by
  induction buf generalizing c with
  | nil => rfl
  | cons b rest ih => rw [List.foldl_cons, List.foldl_cons, big_byte, ih]

theorem big_is_bytes : WordIsBytes bigSteps := by
  intro c bytes four
  rw [← rev_rev c, big_word, little_word _ bytes four, big_fold]

end BigEndian

/-! Detection. -/
section Detection

/-- Both byte orders compute the reflected CRC, wherever the buffer begins. -/
theorem crc32_reflected (order : ByteOrder) (crc : BitVec 32) (address : Nat)
    (buf : List UInt8) :
    crc32 order crc address buf = ~~~ crcFrom polynomial (~~~ crc) buf := by
  cases order with
  | little =>
      rw [crc32, crc_loops_fold little_word, little_byte]
      rfl
  | big =>
      rw [crc32, crc_loops_fold big_is_bytes, ← rev_not, big_fold, ← rev_not, rev_rev, little_byte]
      rfl

/-- The CRCs of two buffers that differ in one byte differ. -/
theorem crc32_set (order : ByteOrder) (crc : BitVec 32) (address other : Nat) (buf : List UInt8)
    (i : Nat) (bound : i < buf.length) (byte : UInt8) (changed : byte ≠ buf[i]) :
    crc32 order crc address (buf.set i byte) ≠ crc32 order crc other buf := by
  rw [crc32_reflected, crc32_reflected]
  intro same
  exact crc_from_set polynomial (by decide) (by decide) buf i bound byte changed _
    (BitVec.not_inj.mp same)

end Detection

end PteSysbench.Crc32
