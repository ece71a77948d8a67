import PteSysbench.ByteBuffer
import Mathlib.Data.List.TakeWhile

/-!
Types of db_driver.h that several parts of the database layer share, and
`db_print_value`.
-/

namespace PteSysbench.DbDriver

open ByteBuffer

inductive DbError where
  | none
  | ignorable
  | fatal
  deriving DecidableEq

/-- The counter types a driver stores in `rs->counter`. -/
inductive Counter where
  | other
  | read
  | write
  | error
  | reconnect
  deriving DecidableEq

inductive ConnState where
  | ready
  | resultSet
  | invalid
  deriving DecidableEq

/-! Bound values. -/
section Values

/-- `db_time_t`. -/
structure DbTime where
  year : UInt32
  month : UInt32
  day : UInt32
  hour : UInt32
  minute : UInt32
  second : UInt32

/-- A character buffer of which `dataLen` bytes are significant. -/
structure CharBuffer where
  bytes : List UInt8
  dataLen : Nat
  fits : dataLen ≤ bytes.length

/-- The significant bytes. -/
def CharBuffer.data (buffer : CharBuffer) : List UInt8 := buffer.bytes.take buffer.dataLen

/-- `db_bind_type_t` with what `buffer` and `data_len` point to. `DB_TYPE_NONE`
ends the drivers' type tables and is no parameter's type. A float is given by
the bits of the double it is promoted to. -/
inductive BindValue where
  | tinyint (value : Int8)
  | smallint (value : Int16)
  | int (value : Int32)
  | bigint (value : Int64)
  | float (bits : UInt64)
  | double (bits : UInt64)
  | time (value : DbTime)
  | date (value : DbTime)
  | datetime (value : DbTime)
  | timestamp (value : DbTime)
  | char (value : CharBuffer)
  | varchar (value : CharBuffer)

/-- `is_null` may be a null pointer. -/
structure DbBind where
  value : BindValue
  isNull : Option Bool

def DbBind.null (var : DbBind) : Bool := var.isNull.getD false

/-- The C library's `%f`: any text without a terminator. -/
structure FloatFormat where
  text : UInt64 → List UInt8
  noTerminator : ∀ bits, 0 ∉ text bits

/-- `%d` and its length variants. -/
def decimal (value : Int) : List UInt8 :=
  let digits := (Nat.toDigits 10 value.natAbs).map fun c => UInt8.ofNat c.toNat
  if value < 0 then 45 :: digits else digits

/-- An `unsigned int` printed with `%d`. -/
def decimalUnsigned (value : UInt32) : List UInt8 := decimal value.toInt32.toInt

/-- Texts with a separator byte between them. -/
def separated (separator : UInt8) : List (List UInt8) → List UInt8
  | [] => []
  | [text] => text
  | text :: rest => text ++ separator :: separated separator rest

def quoted (text : List UInt8) : List UInt8 := 39 :: text ++ [39]

def dateText (tm : DbTime) : List UInt8 :=
  separated 45 ([tm.year, tm.month, tm.day].map decimalUnsigned)

def timeText (tm : DbTime) : List UInt8 :=
  separated 58 ([tm.hour, tm.minute, tm.second].map decimalUnsigned)

/-- What `%s` prints of a buffer. -/
def untilTerminator (bytes : List UInt8) : List UInt8 := bytes.takeWhile (· != 0)

/-- The untruncated output of the format of `db_print_value` for a value. -/
def printedValue (format : FloatFormat) : BindValue → List UInt8
  | .tinyint value => decimal value.toInt
  | .smallint value => decimal value.toInt
  | .int value => decimal value.toInt
  | .bigint value => decimal value.toInt
  | .float bits => format.text bits
  | .double bits => format.text bits
  | .char value => quoted (untilTerminator value.bytes)
  | .varchar value => quoted (untilTerminator value.bytes)
  | .date tm => quoted (dateText tm)
  | .time tm => quoted (timeText tm)
  | .datetime tm => quoted (dateText tm ++ 32 :: timeText tm)
  | .timestamp tm => quoted (dateText tm ++ 32 :: timeText tm)

/-- `snprintf` into `buflen` bytes from `start` on. -/
def snprintf (buffer : Buffer) (start buflen : Nat) (text : List UInt8) : Buffer :=
  if buflen = 0 then buffer else buffer.write start (text.take (buflen - 1) ++ [0])

def nullText : List UInt8 := [78, 85, 76, 76]

/-- The buffer written, and the length of the text or -1 when it was cut off. -/
def dbPrintValue (format : FloatFormat) (var : DbBind) (buffer : Buffer) (start buflen : Nat) :
    Buffer × Int :=
  let text := if var.null then nullText else printedValue format var.value
  (snprintf buffer start buflen text, if text.length < buflen then text.length else -1)

theorem decimal_no_terminator (value : Int) : 0 ∉ decimal value := by
  -- digits are the bytes 48 to 57
  have digits : 0 ∉ (Nat.toDigits 10 value.natAbs).map fun c => UInt8.ofNat c.toNat := by
    intro member
    obtain ⟨c, digit, zero⟩ := List.mem_map.mp member
    have shown := Nat.isDigit_of_mem_toDigits (by decide) (by decide) digit
    simp only [Char.isDigit, Bool.and_eq_true, decide_eq_true_eq] at shown
    have low : 48 ≤ c.toNat := shown.1
    have high : c.toNat ≤ 57 := shown.2
    have same := congrArg UInt8.toNat zero
    simp only [UInt8.toNat_ofNat', UInt8.toNat_zero] at same
    omega
  unfold decimal
  split
  · intro member
    rcases List.mem_cons.mp member with minus | digit
    · exact absurd minus (by decide)
    · exact digits digit
  · exact digits

theorem separated_no_terminator (separator : UInt8) (texts : List (List UInt8))
    (visible : 0 ≠ separator) (clean : ∀ text ∈ texts, 0 ∉ text) :
    0 ∉ separated separator texts := by
  induction texts with
  | nil => exact List.not_mem_nil
  | cons text rest ih =>
      have head := clean text List.mem_cons_self
      have tail := ih fun other member => clean other (List.mem_cons_of_mem _ member)
      cases rest with
      | nil => exact head
      | cons next more =>
          intro member
          rcases List.mem_append.mp member with here | later
          · exact head here
          · rcases List.mem_cons.mp later with mark | deeper
            · exact visible mark
            · exact tail deeper

theorem date_no_terminator (tm : DbTime) : 0 ∉ dateText tm ∧ 0 ∉ timeText tm := by
  constructor
  · apply separated_no_terminator _ _ (by decide)
    simp [decimalUnsigned, decimal_no_terminator]
  · apply separated_no_terminator _ _ (by decide)
    simp [decimalUnsigned, decimal_no_terminator]

theorem until_terminator_clean (bytes : List UInt8) : 0 ∉ untilTerminator bytes := by
  intro member
  exact absurd (List.mem_takeWhile_imp member) (by simp)

/-- What `db_print_value` prints is a C string. -/
theorem printed_value_no_terminator (format : FloatFormat) (value : BindValue) :
    0 ∉ printedValue format value := by
  cases value with
  | float bits => exact format.noTerminator bits
  | double bits => exact format.noTerminator bits
  | char value => simp [printedValue, quoted, until_terminator_clean]
  | varchar value => simp [printedValue, quoted, until_terminator_clean]
  | date tm => simp [printedValue, quoted, (date_no_terminator tm).1]
  | time tm => simp [printedValue, quoted, (date_no_terminator tm).2]
  | datetime tm =>
      simp [printedValue, quoted, (date_no_terminator tm).1, (date_no_terminator tm).2]
  | timestamp tm =>
      simp [printedValue, quoted, (date_no_terminator tm).1, (date_no_terminator tm).2]
  | tinyint value => exact decimal_no_terminator _
  | smallint value => exact decimal_no_terminator _
  | int value => exact decimal_no_terminator _
  | bigint value => exact decimal_no_terminator _
end Values
end PteSysbench.DbDriver
