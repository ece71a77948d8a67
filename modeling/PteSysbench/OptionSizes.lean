import PteSysbench.OptionValues
import Mathlib.Algebra.Group.Nat.Defs
import Mathlib.Data.UInt

/-!
Sizes of `sb_opt_to_size` as numbers of bytes: digits and one of the suffixes K, M, G and
T. The sum and the products are of 64 bits and nobody looks at what they lose.
-/

namespace PteSysbench.OptionSizes

open OptionRegistry OptionValues

/-- The power of 1024 that a suffix stands for. -/
def unitPower (c : CChar) : Option Nat :=
  if c.val = 75 ∨ c.val = 107 then some 1
  else if c.val = 77 ∨ c.val = 109 then some 2
  else if c.val = 71 ∨ c.val = 103 then some 3
  else if c.val = 84 ∨ c.val = 116 then some 4
  else none

def Digits (digits : Text) : Prop := digits ≠ [] ∧ ∀ d ∈ digits, isdigit d = true

/-- A size as the manual has it, and its number of bytes. -/
inductive SizeText : Text → Nat → Prop where
  | plain (digits : Text) (number : Digits digits) : SizeText digits (decimal digits)
  | scaled (digits : Text) (suffix : CChar) (k : Nat) (number : Digits digits)
      (unit : unitPower suffix = some k) :
      SizeText (digits ++ [suffix]) (decimal digits * 1024 ^ k)

/-- No size: no digit in front, or behind the digits what is no suffix. -/
inductive NoSize : Text → Prop where
  | empty : NoSize []
  | start (c : CChar) (rest : Text) (other : isdigit c = false) : NoSize (c :: rest)
  | foreign (digits rest : Text) (c : CChar) (number : Digits digits)
      (other : isdigit c = false) (unit : unitPower c = none) : NoSize (digits ++ c :: rest)

/-- The size is read as written, or as 0 where it does not fit or is none. -/
structure SizeRead (s : Text) (size : UInt64) : Prop where
  exactly : ∀ bytes, SizeText s bytes → size.toNat = if bytes < 2 ^ 64 then bytes else 0
  refused : NoSize s → size = 0

/-! What the scanner makes of any text. -/
section Scanner

def factor : Text → Nat
  | [] => 1
  | c :: _ => ((unitPower c).map fun k => 1024 ^ k).getD 0

/-- The digits in front, times what the character behind them stands for. -/
def bytesGiven (s : Text) : Nat :=
  decimal (s.takeWhile isdigit) * factor (s.dropWhile isdigit)

def addDigit (n : Nat) (c : CChar) : Nat := n * 10 + digitValue c

/-- `rc` and `mult` behind the digits. -/
def stopped (rc : Nat) : Text → Nat × Option CChar
  | [] => (rc, none)
  | c :: _ => if rc = 1 then (2, some c) else (rc, none)

theorem scan_size_eq (s : Text) (n rc : Nat) :
    scanSize (.ofNat n) rc s = (.ofNat ((s.takeWhile isdigit).foldl addDigit n),
      stopped (if s.takeWhile isdigit = [] then rc else 1) (s.dropWhile isdigit)) := by
  induction s generalizing n rc with
  | nil => rfl
  | cons c rest ih =>
      by_cases digit : isdigit c = true
      · have added : UInt64.ofNat n * 10 + .ofNat (digitValue c) = .ofNat (addDigit n c) := by
          simp [addDigit]
        rw [scanSize, if_pos digit, added, ih, List.takeWhile_cons_of_pos digit,
          List.dropWhile_cons_of_pos digit]
        simp
      · rw [scanSize, if_neg digit, List.takeWhile_cons_of_neg digit,
          List.dropWhile_cons_of_neg digit]
        by_cases started : rc = 1 <;> simp [stopped, started]

theorem upper_index (c : CChar) :
    (sizemods.idxOf? (toupper c)).map (· + 1) = unitPower c := by
  have all : ∀ n < 256, ∀ some_ : UInt8.ofNat n ≠ 0,
      (sizemods.idxOf? (toupper ⟨UInt8.ofNat n, some_⟩)).map (· + 1) =
        unitPower ⟨UInt8.ofNat n, some_⟩ := by
    decide +kernel
  have same := all c.val.toNat c.val.toNat_lt
  simp only [UInt8.ofNat_toNat] at same
  exact same c.property

theorem times_iterate (n k : Nat) :
    (· * (1024 : UInt64))^[k] (.ofNat n) = .ofNat (n * 1024 ^ k) := by
  induction k with
  | zero => simp
  | succ k ih =>
      rw [Function.iterate_succ_apply', ih, pow_succ, ← mul_assoc]
      simp

/-- Whatever the text is, the number is lost only where it does not fit. -/
theorem read_size_eq (s : Text) : readSize s = .ofNat (bytesGiven s) := by
  have scanned := scan_size_eq s 0 0
  rw [readSize, show (0 : UInt64) = .ofNat 0 from rfl, scanned]
  by_cases none_ : s.takeWhile isdigit = []
  · cases rest : s.dropWhile isdigit <;> simp [bytesGiven, none_, decimal, stopped]
  · rw [if_neg none_]
    have number : (s.takeWhile isdigit).foldl addDigit 0 = decimal (s.takeWhile isdigit) := rfl
    cases rest : s.dropWhile isdigit with
    | nil => simp [bytesGiven, rest, factor, stopped, number]
    | cons c after =>
        have index := upper_index c
        simp only [bytesGiven, rest, factor, stopped, if_true, number, ← index]
        cases sizemods.idxOf? (toupper c) with
        | none => simp
        | some k => simpa using times_iterate (decimal (s.takeWhile isdigit)) (k + 1)
end Scanner

/-! The two kinds of texts. -/
section Texts
variable {s : Text}

theorem digits_split (digits rest : Text) (number : Digits digits)
    (ends : ∀ c ∈ rest.head?, isdigit c = false) :
    (digits ++ rest).takeWhile isdigit = digits ∧ (digits ++ rest).dropWhile isdigit = rest := by
  have stops : rest.takeWhile isdigit = [] ∧ rest.dropWhile isdigit = rest := by
    cases rest with
    | nil => exact ⟨rfl, rfl⟩
    | cons c after =>
        have other : ¬ isdigit c = true := by simp [ends c rfl]
        exact ⟨List.takeWhile_cons_of_neg other, List.dropWhile_cons_of_neg other⟩
  rw [List.takeWhile_append_of_pos number.2, List.dropWhile_append_of_pos number.2, stops.1,
    stops.2, List.append_nil]
  exact ⟨rfl, rfl⟩

theorem unit_no_digit (c : CChar) (k : Nat) (unit : unitPower c = some k) :
    isdigit c = false := by
  by_contra digit
  have bounds : 48 ≤ c.val ∧ c.val ≤ 57 := by simpa [isdigit] using digit
  unfold unitPower at unit
  split_ifs at unit <;> rename_i letter <;> rcases letter with same | same <;>
    rw [same] at bounds <;> exact absurd bounds (by decide)

theorem size_text_given (bytes : Nat) (form : SizeText s bytes) : bytesGiven s = bytes := by
  cases form with
  | plain digits number =>
      obtain ⟨front, behind⟩ := digits_split s [] number (by simp)
      rw [List.append_nil] at front behind
      simp [bytesGiven, front, behind, factor]
  | scaled digits suffix k number unit =>
      obtain ⟨front, behind⟩ := digits_split digits [suffix] number
        (by simpa using unit_no_digit suffix k unit)
      simp [bytesGiven, front, behind, factor, unit]

theorem no_size_given (form : NoSize s) : bytesGiven s = 0 := by
  cases form with
  | empty => simp [bytesGiven, decimal]
  | start c rest other => simp [bytesGiven, decimal, other]
  | foreign digits rest c number other unit =>
      obtain ⟨front, behind⟩ := digits_split digits (c :: rest) number (by simpa using other)
      simp [bytesGiven, front, behind, factor, unit]

/-- A number that does not fit is refused only if nothing of it is left. -/
theorem lost_or_exact (bytes : Nat) :
    bytes % 2 ^ 64 = (if bytes < 2 ^ 64 then bytes else 0) ↔ bytes < 2 ^ 64 ∨ 2 ^ 64 ∣ bytes := by
  by_cases fits : bytes < 2 ^ 64
  · rw [if_pos fits]
    omega
  · rw [if_neg fits]
    omega

/-- An option set to a text. -/
def holding (opt : OptionEntry) (s : Text) : OptionEntry := { opt with values := [s] }

theorem size_read_iff (opt : OptionEntry) (s : Text) :
    SizeRead s (sbOptToSize (holding opt s)) ↔
      ∀ bytes, SizeText s bytes → bytes < 2 ^ 64 ∨ 2 ^ 64 ∣ bytes := by
  have read : sbOptToSize (holding opt s) = .ofNat (bytesGiven s) := read_size_eq s
  have number : (sbOptToSize (holding opt s)).toNat = bytesGiven s % 2 ^ 64 := by
    rw [read]
    rfl
  -- what does not fit is lost unless it wraps to 0
  constructor
  · intro right bytes form
    have exactly := right.exactly bytes form
    rw [number, size_text_given bytes form] at exactly
    exact (lost_or_exact bytes).mp exactly
  · intro fits
    refine ⟨fun bytes form => ?_, fun form => ?_⟩
    · rw [number, size_text_given bytes form]
      exact (lost_or_exact bytes).mpr (fits bytes form)
    · rw [read, no_size_given form]
      rfl

/-- 2^64 + 1 bytes are taken for one. -/
theorem wrapped_size_read : ¬ SizeRead (text "18446744073709551617")
    (sbOptToSize (holding (newOption (text "memory-total-size"))
      (text "18446744073709551617"))) := by
  intro right
  have form : SizeText (text "18446744073709551617") (2 ^ 64 + 1) :=
    SizeText.plain (text "18446744073709551617") ⟨by decide, List.all_eq_true.mp rfl⟩
  exact absurd (right.exactly _ form) (by decide)
end Texts
end PteSysbench.OptionSizes
