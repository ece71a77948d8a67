import Mathlib.Algebra.Group.Nat.Defs
import Mathlib.Data.List.GetD

/-!
Buffers of bytes whose writes are all recorded. A write past the end of the
allocated room is not an error of the model: `Within` says that there was none.
-/

namespace PteSysbench.ByteBuffer

/-- A C string and its length in `size_t`. -/
structure CString where
  bytes : List UInt8
  noTerminator : 0 ∉ bytes
  sized : bytes.length < 2 ^ 63

def CString.strlen (s : CString) : Nat := s.bytes.length

/-- Contents of an allocation and the indices written since. -/
structure Buffer where
  bytes : Nat → UInt8
  touched : List Nat

def allocated (contents : Nat → UInt8) : Buffer := { bytes := contents, touched := [] }

/-- `memcpy(buffer + start, data, ...)`. -/
def Buffer.write (buffer : Buffer) (start : Nat) (data : List UInt8) : Buffer :=
  { bytes := fun i =>
      if start ≤ i ∧ i < start + data.length then data.getD (i - start) 0 else buffer.bytes i
    touched := buffer.touched ++ (List.range data.length).map fun i => start + i }

/-- The terminator is copied too. -/
def Buffer.strcpy (buffer : Buffer) (start : Nat) (s : CString) : Buffer :=
  buffer.write start (s.bytes ++ [0])

def Buffer.read (buffer : Buffer) (start count : Nat) : List UInt8 :=
  (List.range count).map fun i => buffer.bytes (start + i)

def Buffer.Within (buffer : Buffer) (capacity : Nat) : Prop :=
  ∀ i ∈ buffer.touched, i < capacity

theorem allocated_within (contents : Nat → UInt8) (capacity : Nat) :
    (allocated contents).Within capacity := by
  intro i member
  exact absurd member List.not_mem_nil

theorem write_nothing (buffer : Buffer) (start : Nat) : buffer.write start [] = buffer := by
  have none_ : ∀ i, ¬ (start ≤ i ∧ i < start) := by omega
  simp [Buffer.write, none_]

/-- Bytes written one after the other are one write. -/
theorem write_cons (buffer : Buffer) (start : Nat) (b : UInt8) (rest : List UInt8) :
    (buffer.write start [b]).write (start + 1) rest = buffer.write start (b :: rest) := by
  simp only [Buffer.write, Buffer.mk.injEq]
  constructor
  · funext i
    simp only [List.length_cons, List.length_nil]
    by_cases first : i = start
    · subst first
      rw [if_neg (by omega), if_pos (by omega), if_pos (by omega), Nat.sub_self]
      rfl
    · by_cases inside : start + 1 ≤ i ∧ i < start + 1 + rest.length
      · rw [if_pos inside, if_pos (by omega)]
        obtain ⟨k, rfl⟩ : ∃ k, i = start + (k + 1) := ⟨i - start - 1, by omega⟩
        rw [Nat.add_sub_cancel_left, show start + (k + 1) - (start + 1) = k by omega]
        rfl
      · rw [if_neg inside, if_neg (by omega), if_neg (by omega)]
  · rw [List.append_assoc]
    congr 1
    simp [List.range_succ_eq_map, Function.comp_def, Nat.add_assoc, Nat.add_comm 1]

theorem within_write (buffer : Buffer) (start capacity : Nat) (data : List UInt8)
    (some_ : data ≠ []) :
    (buffer.write start data).Within capacity ↔
      buffer.Within capacity ∧ start + data.length ≤ capacity := by
  have positive : 0 < data.length := List.length_pos_iff.mpr some_
  constructor
  · intro inside
    refine ⟨fun i member => inside i (List.mem_append_left _ member), ?_⟩
    have last : start + (data.length - 1) < capacity :=
      inside _ (List.mem_append_right _
        (List.mem_map.mpr ⟨data.length - 1, List.mem_range.mpr (by omega), rfl⟩))
    omega
  · rintro ⟨before, room⟩ i member
    rcases List.mem_append.mp member with old | new
    · exact before i old
    · obtain ⟨k, bound, same⟩ := List.mem_map.mp new
      have := List.mem_range.mp bound
      omega

theorem within_strcpy (buffer : Buffer) (start capacity : Nat) (s : CString) :
    (buffer.strcpy start s).Within capacity ↔
      buffer.Within capacity ∧ start + s.strlen + 1 ≤ capacity := by
  rw [Buffer.strcpy, within_write _ _ _ _ (by simp), List.length_append, CString.strlen]
  rfl

theorem read_write_outside (buffer : Buffer) (start from_ count : Nat) (data : List UInt8)
    (apart : from_ + count ≤ start ∨ start + data.length ≤ from_) :
    (buffer.write start data).read from_ count = buffer.read from_ count := by
  apply List.map_congr_left
  intro i member
  have bound := List.mem_range.mp member
  simp only [Buffer.write]
  rw [if_neg (by omega)]

theorem read_write_inside (buffer : Buffer) (start skip count : Nat) (data : List UInt8)
    (inside : skip + count ≤ data.length) :
    (buffer.write start data).read (start + skip) count = (data.drop skip).take count := by
  apply List.ext_getElem
  · simp only [Buffer.read, List.length_map, List.length_range, List.length_take,
      List.length_drop]
    omega
  · intro i bound _
    have small : i < count := by simpa [Buffer.read] using bound
    simp only [Buffer.read, Buffer.write, List.getElem_map, List.getElem_range,
      List.getElem_take, List.getElem_drop]
    rw [if_pos (by omega), List.getD_eq_getElem _ _ (by omega)]
    congr 1
    omega

theorem read_add (buffer : Buffer) (start first second : Nat) :
    buffer.read start (first + second) =
      buffer.read start first ++ buffer.read (start + first) second := by
  simp [Buffer.read, List.range_add, Nat.add_assoc]

theorem read_write_same (buffer : Buffer) (start : Nat) (data : List UInt8) :
    (buffer.write start data).read start data.length = data := by
  have whole := read_write_inside buffer start 0 data.length data (by omega)
  simpa using whole

theorem read_drop (buffer : Buffer) (start count skip : Nat) :
    (buffer.read start count).drop skip = buffer.read (start + skip) (count - skip) := by
  apply List.ext_getElem
  · simp [Buffer.read]
  · intro i _ _
    simp [Buffer.read, Nat.add_assoc]
end PteSysbench.ByteBuffer
