import PteSysbench.OptionRegistry
import Mathlib.Algebra.Group.Int.Defs
import Mathlib.Logic.Function.Iterate

/-!
The getters of `sb_options.c`: what the values of an option are read as. `strtod` is a
parameter, with whatever the readers of its result take for a `double`.
-/

namespace PteSysbench.OptionValues

open OptionRegistry

def plus : CChar := ⟨43, by decide⟩

def isdigit (c : CChar) : Bool := decide (48 ≤ c.val ∧ c.val ≤ 57)

def digitValue (c : CChar) : Nat := c.val.toNat - 48

/-- The number that the digits stand for. -/
def decimal (digits : Text) : Nat := digits.foldl (fun n c => n * 10 + digitValue c) 0

/-- The sign that `strtol` takes, and the text after it. -/
def strtolSign : Text → Int × Text
  | [] => (1, [])
  | c :: rest => if c = dash then (-1, rest) else if c = plus then (1, rest) else (1, c :: rest)

/-- `strtol` in base 10: the number, clamped to a `long`, and the text at `endptr`. -/
def strtol (s : Text) : Int × Text :=
  let (sign, number) := strtolSign (s.dropWhile isspace)
  if number.takeWhile isdigit = [] then (0, s)
  else (max (-2 ^ 63) (min (2 ^ 63 - 1) (sign * decimal (number.takeWhile isdigit))),
    number.dropWhile isdigit)

/-- What the process says before it exits. -/
structure InvalidValue where
  name : Text
  value : Text
  deriving DecidableEq

def InvalidValue.message (failure : InvalidValue) : Text :=
  text "Invalid value for the '" ++ failure.name ++ text "' option: '" ++ failure.value ++
    text "'\n"

def sbOptToFlag (opt : OptionEntry) : Bool := !opt.values.isEmpty

/-- The whole text has to be a number of an `int`. -/
def readInt (value : Text) : Option Int :=
  let (res, endptr) := strtol value
  if endptr ≠ [] ∨ 2 ^ 31 - 1 < res ∨ res < -2 ^ 31 then none else some res

def sbOptToInt (opt : OptionEntry) : Except InvalidValue Int :=
  match opt.values with
  | [] => .ok 0
  | value :: _ =>
      match readInt value with
      | none => .error { name := opt.name, value }
      | some res => .ok res

/-- The loop in place of `sscanf`: `res`, `rc` and `mult`. -/
def scanSize (res : UInt64) (rc : Nat) : Text → UInt64 × Nat × Option CChar
  | [] => (res, rc, none)
  | c :: rest =>
      if isdigit c then scanSize (res * 10 + .ofNat (digitValue c)) 1 rest
      else if rc = 1 then (res, 2, some c)
      else (res, rc, none)

/-- "KMGT". -/
def sizemods : List UInt8 := [75, 77, 71, 84]

def toupper (c : CChar) : UInt8 := if 97 ≤ c.val ∧ c.val ≤ 122 then c.val - 32 else c.val

def readSize (value : Text) : UInt64 :=
  match scanSize 0 0 value with
  | (res, 2, some mult) =>
      match sizemods.idxOf? (toupper mult) with
      | some n => (· * 1024)^[n + 1] res
      | none => 0
  | (res, _, _) => res

def sbOptToSize (opt : OptionEntry) : UInt64 :=
  match opt.values with
  | [] => 0
  | value :: _ => readSize value

/-- Every value is read, and the last one stays. -/
def sbOptToDouble {Double : Type*} [Zero Double] (strtod : Text → Double)
    (opt : OptionEntry) : Double :=
  opt.values.foldl (fun _ value => strtod value) 0

def sbOptToString (opt : OptionEntry) : Option Text := opt.values.head?

def sbOptToList (opt : OptionEntry) : List Text := opt.values

/-! The getters by name: an option that is not in the list reads as zero or NULL. -/
section ByName

def sbGetValueInt (options : Registry) (name : Text) : Except InvalidValue Int :=
  match findOption options name with
  | none => .ok 0
  | some opt => sbOptToInt opt

def sbGetValueSize (options : Registry) (name : Text) : UInt64 :=
  match findOption options name with
  | none => 0
  | some opt => sbOptToSize opt

def sbGetValueDouble {Double : Type*} [Zero Double] (strtod : Text → Double)
    (options : Registry) (name : Text) : Double :=
  match findOption options name with
  | none => 0
  | some opt => sbOptToDouble strtod opt

def sbGetValueString (options : Registry) (name : Text) : Option Text :=
  (findOption options name).bind sbOptToString

end ByName

/-! Numbers that are read. -/
section Numbers

theorem read_int_fits (value : Text) (res : Int) (read : readInt value = some res) :
    -2 ^ 31 ≤ res ∧ res < 2 ^ 31 := by
  simp only [readInt, Option.ite_none_left_eq_some, Option.some.injEq] at read
  obtain ⟨fits, rfl⟩ := read
  omega

theorem get_value_int_cases (options : Registry) (name : Text) (res : Int)
    (read : sbGetValueInt options name = .ok res) :
    res = 0 ∨ ∃ value, readInt value = some res := by
  unfold sbGetValueInt at read
  cases found : findOption options name with
  | none =>
      rw [found] at read
      exact .inl (Except.ok.inj read).symm
  | some opt =>
      simp only [found, sbOptToInt] at read
      cases values : opt.values with
      | nil =>
          rw [values] at read
          exact .inl (Except.ok.inj read).symm
      | cons value rest =>
          cases number : readInt value with
          | none => simp [values, number] at read
          | some res' =>
              simp only [values, number, Except.ok.injEq] at read
              exact .inr ⟨value, read ▸ number⟩

theorem get_value_int_fits (options : Registry) (name : Text) (res : Int)
    (read : sbGetValueInt options name = .ok res) : -2 ^ 31 ≤ res ∧ res < 2 ^ 31 := by
  rcases get_value_int_cases options name res read with rfl | ⟨value, number⟩
  · decide
  · exact read_int_fits value res number

theorem mem_dropWhile (p : CChar → Bool) (s : Text) (c : CChar) (stops : p c = false)
    (member : c ∈ s) : c ∈ s.dropWhile p := by
  induction s with
  | nil => exact member
  | cons first rest ih =>
      rw [List.dropWhile_cons]
      split
      · rename_i skipped
        rcases List.mem_cons.mp member with rfl | later
        · rw [stops] at skipped
          cases skipped
        · exact ih later
      · exact member

theorem mem_after_sign (s : Text) (c : CChar) (signs : c ≠ dash ∧ c ≠ plus) (member : c ∈ s) :
    c ∈ (strtolSign s).2 := by
  cases s with
  | nil => exact member
  | cons first rest =>
      rcases List.mem_cons.mp member with rfl | later
      · simp [strtolSign, signs]
      · by_cases negative : first = dash
        · simpa [strtolSign, negative] using later
        · by_cases positive : first = plus
          · simpa [strtolSign, positive, show plus ≠ dash by decide] using later
          · simp [strtolSign, negative, positive, later]

/-- `strtol` does not get past a character that is no blank, sign or digit. -/
theorem strtol_stops (s : Text) (c : CChar) (blank : isspace c = false)
    (signs : c ≠ dash ∧ c ≠ plus) (digit : isdigit c = false) (member : c ∈ s) :
    c ∈ (strtol s).2 := by
  have behindSign := mem_after_sign _ c signs (mem_dropWhile isspace s c blank member)
  simp only [strtol]
  split
  · exact member
  · exact mem_dropWhile isdigit _ c digit behindSign

/-- A text that does not end in its digits is no number. -/
theorem read_int_stops (value : Text) (c : CChar) (blank : isspace c = false)
    (signs : c ≠ dash ∧ c ≠ plus) (digit : isdigit c = false) (member : c ∈ value) :
    readInt value = none := by
  have left := strtol_stops value c blank signs digit member
  have unread : (strtol value).2 ≠ [] := List.ne_nil_of_mem left
  simp [readInt, unread]

/-- A size is read up to the first character that is no digit. -/
theorem scan_size_stops (digits rest : Text) (res : UInt64) (rc : Nat)
    (present : ∃ d ∈ digits, isdigit d = false) :
    scanSize res rc (digits ++ rest) = scanSize res rc digits := by
  induction digits generalizing res rc with
  | nil => simp at present
  | cons first more ih =>
      rw [List.cons_append, scanSize, scanSize]
      by_cases counted : isdigit first = true
      · rw [if_pos counted, if_pos counted]
        obtain ⟨d, member, other⟩ := present
        rcases List.mem_cons.mp member with rfl | later
        · rw [other] at counted
          cases counted
        · exact ih _ _ ⟨d, later, other⟩
      · rw [if_neg counted, if_neg counted]

/-- After digits only, the next character is taken for a modifier. -/
theorem scan_size_modifier (digits rest : Text) (c : CChar) (digit : isdigit c = false)
    (res : UInt64) (allDigits : ∀ d ∈ digits, isdigit d = true) (rc : Nat)
    (started : rc = 1 ∨ digits ≠ []) :
    ∃ total, scanSize res rc (digits ++ c :: rest) = (total, 2, some c) := by
  induction digits generalizing res rc with
  | nil =>
      obtain rfl : rc = 1 := started.resolve_right (by simp)
      exact ⟨res, by simp [scanSize, digit]⟩
  | cons first more ih =>
      have counted := allDigits first List.mem_cons_self
      rw [List.cons_append, scanSize, if_pos counted]
      exact ih _ (fun d later => allDigits d (List.mem_cons_of_mem first later)) 1 (.inl rfl)

/-- A character that is neither a digit nor a size modifier makes the size of the
digits before it zero, and nothing else. -/
theorem read_size_foreign (digits rest : Text) (c : CChar) (digit : isdigit c = false)
    (foreign : sizemods.idxOf? (toupper c) = none) :
    readSize (digits ++ c :: rest) = if digits.all isdigit then 0 else readSize digits := by
  by_cases allDigits : ∀ d ∈ digits, isdigit d = true
  · rw [if_pos (List.all_eq_true.mpr allDigits)]
    cases digits with
    | nil => simp [readSize, scanSize, digit]
    | cons first more =>
        obtain ⟨total, scanned⟩ := scan_size_modifier (first :: more) rest c digit 0
          allDigits 0 (.inr (by simp))
        rw [readSize, scanned]
        simp [foreign]
  · rw [if_neg (List.all_eq_true.not.mpr allDigits)]
    push Not at allDigits
    obtain ⟨d, member, other⟩ := allDigits
    rw [readSize, scan_size_stops digits (c :: rest) 0 0 ⟨d, member, by simpa using other⟩,
      ← readSize]

end Numbers
end PteSysbench.OptionValues
