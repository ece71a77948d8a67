import PteSysbench.DbDriver
import PteSysbench.OptionRegistry
import Mathlib.Algebra.Group.Int.Defs

/-!
`log_text`, `log_timestamp` and `log_errno` of sb_logger.c: messages formatted piece by
piece into a buffer on the stack, with the length that `vsnprintf` returns as the next
index. Sizes are recorded as the `int` they are before the call makes a `size_t` of them.
-/

namespace PteSysbench.LoggerBuffers

open ByteBuffer DbDriver OptionRegistry

/-! Formatting. -/
section Formatting

/-- TEXT_BUFFER_SIZE. -/
def textBufferSize : Int := 4096

/-- ERROR_BUFFER_SIZE. -/
def errorBufferSize : Nat := 256

/-- What a format and its arguments come to; `vsnprintf` can return its length. -/
structure Formatted where
  bytes : List UInt8
  sized : bytes.length < 2 ^ 31

def bytesOf (text : Text) : List UInt8 := text.map Subtype.val

def newline : List UInt8 := [10]

def roundHalfEven (n k : Nat) : Nat :=
  let q := n / 2 ^ k
  let r := n % 2 ^ k
  if 2 ^ k < 2 * r ∨ 2 ^ k = 2 * r ∧ q % 2 = 1 then q + 1 else q

/-- `%.0f`. -/
def printedDouble (bits : UInt64) : List UInt8 :=
  let sign := if bits.toNat / 2 ^ 63 = 1 then bytesOf (text "-") else []
  let exponent := bits.toNat / 2 ^ 52 % 2 ^ 11
  let fraction := bits.toNat % 2 ^ 52
  if exponent = 2047 then
    sign ++ bytesOf (if fraction = 0 then text "inf" else text "nan")
  else
    let significand := if exponent = 0 then fraction else fraction + 2 ^ 52
    -- the value is significand * 2 ^ (max exponent 1 - 1075)
    let exponent := max exponent 1
    sign ++ decimal (if 1075 ≤ exponent then significand * 2 ^ (exponent - 1075)
      else roundHalfEven significand (1075 - exponent) : Nat)

/-- `"[ %.0fs ] "`. -/
def timestamp (seconds : UInt64) : List UInt8 :=
  bytesOf (text "[ ") ++ printedDouble seconds ++ bytesOf (text "s ] ")

/-- `" errno = %d (%s)"`. -/
def errnoText (oldErrno : Int32) (tmp : Text) : List UInt8 :=
  bytesOf (text " errno = ") ++ decimal oldErrno.toInt ++ bytesOf (text " (") ++ bytesOf tmp ++
    bytesOf (text ")")
end Formatting

/-! The three functions. -/
section Logger

/-- A buffer on the stack, and the sizes of the calls that were to write it. -/
structure Frame where
  buffer : Buffer
  sizes : List Int

def onStack (stack : Nat → UInt8) : Frame := { buffer := allocated stack, sizes := [] }

def Frame.snprintf (frame : Frame) (start size : Int) (bytes : List UInt8) : Frame :=
  { buffer := DbDriver.snprintf frame.buffer start.toNat (size % 2 ^ 64).toNat bytes
    sizes := frame.sizes ++ [size] }

inductive Priority where
  | fatal | alert | warning | notice | info | debug
  deriving DecidableEq

def getMsgPrefix : Priority → Text
  | .fatal => text "FATAL: "
  | .alert => text "ALERT: "
  | .warning => text "WARNING: "
  | .debug => text "DEBUG: "
  | _ => []

/-- LOG_MSG_TEXT_ALLOW_DUPLICATES. -/
def allowDuplicates : Nat := 1

/-- `printf` before the logger is initialized, `log_msg` after. -/
inductive Handed where
  | printed (before : Text) (buf : Buffer)
  | message (priority : Priority) (flags : Nat) (buf : Buffer)

def Handed.buf : Handed → Buffer
  | .printed _ buf | .message _ _ buf => buf

def handOn (initialized : Bool) (priority : Priority) (flags : Nat) (buf : Buffer) : Handed :=
  if initialized then .message priority flags buf else .printed (getMsgPrefix priority) buf

structure Logged where
  frames : List Frame
  handed : Option Handed

/-- The message and the newline from `clen` on, as `log_text` and `log_timestamp` put them. -/
def appendMessage (frame : Frame) (clen maxlen : Int) (message : Formatted) : Frame :=
  let frame := frame.snprintf clen maxlen message.bytes
  let n : Int := message.bytes.length
  let n := if n < 0 ∨ maxlen ≤ n then maxlen else n
  frame.snprintf (clen + n) (maxlen - n) newline

def logText (initialized : Bool) (stack : Nat → UInt8) (priority : Priority)
    (message : Formatted) : Logged :=
  let frame := appendMessage (onStack stack) 0 textBufferSize message
  { frames := [frame], handed := some (handOn initialized priority 0 frame.buffer) }

def logTimestamp (initialized : Bool) (stack : Nat → UInt8) (priority : Priority)
    (seconds : UInt64) (message : Formatted) : Logged :=
  let stamp := timestamp seconds
  let frame := (onStack stack).snprintf 0 textBufferSize stamp
  let n : Int := stamp.length
  let frame := appendMessage frame (0 + n) (textBufferSize - n) message
  { frames := [frame]
    handed := some (handOn initialized priority allowDuplicates frame.buffer) }

/-- Which `strerror_r` the build has. -/
inductive StrerrorR where
  | gnu | posix | missing
  deriving DecidableEq

/-- The error text as far as `errbuf` takes it. -/
def errorText (build : StrerrorR) (error : Text) : Text :=
  if build = .posix then error.take (errorBufferSize - 1) else error

/-- The string at `tmp`; `strncpy` leaves one that fills `errbuf` without its end. -/
def errorString (build : StrerrorR) (error : Text) : Option Text :=
  if build = .missing ∧ errorBufferSize ≤ error.length then none
  else some (errorText build error)

def readString (capacity : Nat) (buf : Buffer) : Text := cString (buf.read 0 capacity)

theorem c_string_length (bytes : List UInt8) : (cString bytes).length ≤ bytes.length := by
  induction bytes with
  | nil => exact Nat.le_refl _
  | cons c rest ih =>
      rw [cString]
      split
      · exact Nat.zero_le _
      · exact Nat.succ_le_succ ih

theorem string_sized (capacity : Nat) (buf : Buffer) (small : capacity < 2 ^ 31) :
    (bytesOf (readString capacity buf)).length < 2 ^ 31 := by
  have short := c_string_length (buf.read 0 capacity)
  rw [Buffer.read, List.length_map, List.length_range] at short
  rw [bytesOf, List.length_map]
  exact Nat.lt_of_le_of_lt short small

def formattedString (capacity : Nat) (buf : Buffer) (small : capacity < 2 ^ 31) : Formatted :=
  ⟨bytesOf (readString capacity buf), string_sized capacity buf small⟩

theorem formatted_bytes (capacity : Nat) (buf : Buffer) (small : capacity < 2 ^ 31) :
    (formattedString capacity buf small).bytes = bytesOf (readString capacity buf) := rfl

theorem buffer_small : 4096 < 2 ^ 31 := by decide

/-- `"%s"` of a buffer. -/
def bufferString (buf : Buffer) : Formatted := formattedString 4096 buf buffer_small

/-- `none` is a read past the end of `errbuf`. -/
def logErrno (build : StrerrorR) (initialized : Bool) (stack inner : Nat → UInt8)
    (priority : Priority) (oldErrno : Int32) (error : Text) (message : Formatted) :
    Option Logged :=
  let frame := (onStack stack).snprintf 0 textBufferSize message.bytes
  let n : Int := message.bytes.length
  if n < 0 ∨ n = textBufferSize then some { frames := [frame], handed := none }
  else (errorString build error).map fun tmp =>
    let frame := frame.snprintf n (textBufferSize - n) (errnoText oldErrno tmp)
    let logged := logText initialized inner priority (bufferString frame.buffer)
    { logged with frames := frame :: logged.frames }

/-- All writes inside, no size negative, and the message or its truncation handed on. -/
structure Proper (logged : Logged) (message : List UInt8) : Prop where
  within : ∀ frame ∈ logged.frames, frame.buffer.Within 4096
  sizes : ∀ frame ∈ logged.frames, ∀ size ∈ frame.sizes, 0 ≤ size
  handed : ∃ handed, logged.handed = some handed ∧ 0 ∈ handed.buf.read 0 4096 ∧
    readString 4096 handed.buf = (cString (message ++ newline)).take 4095

/-- What `log_errno` has to say. -/
def errnoMessage (build : StrerrorR) (oldErrno : Int32) (error : Text) (message : Formatted) :
    List UInt8 :=
  bytesOf (cString (message.bytes ++ errnoText oldErrno (errorText build error)))

structure AllProper (build : StrerrorR) (initialized : Bool) (stack inner : Nat → UInt8)
    (priority : Priority) (seconds : UInt64) (oldErrno : Int32) (error : Text)
    (message : Formatted) : Prop where
  text : Proper (logText initialized stack priority message) message.bytes
  timestamp : Proper (logTimestamp initialized stack priority seconds message)
    (timestamp seconds ++ message.bytes)
  errno : ∃ logged, logErrno build initialized stack inner priority oldErrno error message =
    some logged ∧ Proper logged (errnoMessage build oldErrno error message)
end Logger

/-! What is in a buffer, up to its terminator. -/
section Contents

theorem c_string_terminated (content rest : List UInt8) :
    cString (content ++ 0 :: rest) = cString content := by
  induction content with
  | nil => rfl
  | cons c content ih =>
      rw [List.cons_append, cString, cString]
      split
      · rfl
      · rw [ih]

theorem c_string_take (bytes : List UInt8) (k : Nat) :
    cString (bytes.take k) = (cString bytes).take k := by
  induction bytes generalizing k with
  | nil => rw [List.take_nil, cString, List.take_nil]
  | cons c rest ih =>
      cases k with
      | zero => rw [List.take_zero, List.take_zero, cString]
      | succ k =>
          rw [List.take_succ_cons, cString, cString]
          split
          · rw [List.take_nil]
          · rw [List.take_succ_cons, ih]

structure Contains (buf : Buffer) (content : List UInt8) : Prop where
  within : buf.Within 4096
  short : content.length < 4096
  read : buf.read 0 (content.length + 1) = content ++ [0]

variable {buf : Buffer} {content : List UInt8}

theorem contains_all (contains : Contains buf content) :
    ∃ rest, buf.read 0 4096 = content ++ 0 :: rest := by
  obtain ⟨more, length⟩ := Nat.exists_eq_add_of_le contains.short
  refine ⟨buf.read (0 + (content.length + 1)) more, ?_⟩
  rw [length, read_add, contains.read, List.append_assoc]
  rfl

theorem contains_terminated (contains : Contains buf content) : 0 ∈ buf.read 0 4096 := by
  obtain ⟨rest, all⟩ := contains_all contains
  rw [all]
  exact List.mem_append_right _ List.mem_cons_self

theorem contains_string (contains : Contains buf content) :
    readString 4096 buf = cString content := by
  obtain ⟨rest, all⟩ := contains_all contains
  rw [readString, all, c_string_terminated]

theorem contains_read (contains : Contains buf content) :
    buf.read 0 content.length = content := by
  have split := contains.read
  rw [read_add] at split
  exact List.append_inj_left' split rfl

/-- A text is put behind the content, as much of it as there is room for. -/
theorem snprintf_contains (within : buf.Within 4096) (here : buf.read 0 content.length = content)
    (room : Nat) (total : content.length + (room + 1) = 4096) (bytes : List UInt8) :
    Contains (DbDriver.snprintf buf content.length (room + 1) bytes)
      ((content ++ bytes).take 4095) := by
  have kept : (content ++ bytes).take 4095 = content ++ bytes.take room := by
    rw [List.take_append, List.take_of_length_le (by omega),
      show 4095 - content.length = room by omega]
  have length : (bytes.take room ++ [0]).length = min room bytes.length + 1 := by
    rw [List.length_append, List.length_take]
    rfl
  rw [DbDriver.snprintf, if_neg (Nat.succ_ne_zero room), Nat.add_sub_cancel, kept]
  constructor
  · rw [within_write _ _ _ _ (by simp), length]
    exact ⟨within, by omega⟩
  · rw [List.length_append, List.length_take]
    omega
  · rw [List.length_append, List.length_take, Nat.add_assoc, read_add, Nat.zero_add,
      read_write_outside _ _ _ _ _ (Or.inl (by omega)), here, ← length, read_write_same,
      List.append_assoc]
end Contents

/-! The messages. -/
section Messages
variable {frame : Frame}

structure Frame.Sound (frame : Frame) : Prop where
  within : frame.buffer.Within 4096
  sizes : ∀ size ∈ frame.sizes, 0 ≤ size

theorem stack_sound (stack : Nat → UInt8) : (onStack stack).Sound :=
  ⟨allocated_within stack 4096, fun _ member => absurd member List.not_mem_nil⟩

theorem size_converted (size : Nat) (small : size ≤ 4096) :
    ((size : Int) % 2 ^ 64).toNat = size := by
  rw [Int.emod_eq_of_lt (Int.natCast_nonneg size) (by omega), Int.toNat_natCast]

theorem sizes_more {sizes : List Int} (sound : ∀ size ∈ sizes, 0 ≤ size) (size : Nat) :
    ∀ other ∈ sizes ++ [(size : Int)], 0 ≤ other := by
  intro other member
  rcases List.mem_append.mp member with old | new
  · exact sound other old
  · rw [List.mem_singleton.mp new]
    exact Int.natCast_nonneg size

/-- One call, with an index and a size that make up the buffer. -/
theorem call_contains (sound : frame.Sound) (content : List UInt8)
    (here : frame.buffer.read 0 content.length = content) (size : Nat)
    (some_ : 0 < size) (total : content.length + size = 4096) (bytes : List UInt8) :
    (frame.snprintf content.length size bytes).Sound ∧
      Contains (frame.snprintf content.length size bytes).buffer
        ((content ++ bytes).take 4095) := by
  obtain ⟨room, rfl⟩ := Nat.exists_eq_succ_of_ne_zero (Nat.ne_of_gt some_)
  have contains := snprintf_contains sound.within here room total bytes
  have buffer : (frame.snprintf content.length (room + 1 : Nat) bytes).buffer =
      DbDriver.snprintf frame.buffer content.length (room + 1) bytes := by
    rw [Frame.snprintf, size_converted _ (by omega)]
    rfl
  rw [buffer]
  refine ⟨⟨?_, sizes_more sound.sizes _⟩, contains⟩
  rw [buffer]
  exact contains.within

/-- A call without room writes nothing. -/
theorem call_without_room (sound : frame.Sound) (start : Int) (bytes : List UInt8) :
    (frame.snprintf start 0 bytes).Sound ∧
      (frame.snprintf start 0 bytes).buffer = frame.buffer :=
  ⟨⟨sound.within, sizes_more sound.sizes 0⟩, rfl⟩

theorem first_call (stack : Nat → UInt8) (bytes : List UInt8) :
    ((onStack stack).snprintf 0 textBufferSize bytes).Sound ∧
      Contains ((onStack stack).snprintf 0 textBufferSize bytes).buffer (bytes.take 4095) :=
  call_contains (stack_sound stack) [] rfl 4096 (by decide) rfl bytes

theorem append_message_contains (sound : frame.Sound) (stamp : List UInt8)
    (here : frame.buffer.read 0 stamp.length = stamp) (size : Nat) (some_ : 0 < size)
    (total : stamp.length + size = 4096) (message : Formatted) :
    (appendMessage frame stamp.length size message).Sound ∧
      Contains (appendMessage frame stamp.length size message).buffer
        ((stamp ++ message.bytes ++ newline).take 4095) := by
  obtain ⟨printed, contains⟩ := call_contains sound stamp here size some_ total message.bytes
  have length : (stamp ++ message.bytes).length = stamp.length + message.bytes.length :=
    List.length_append
  -- the newline comes behind the whole message, or there is no room for it
  by_cases fits : message.bytes.length < size
  · have whole : (stamp ++ message.bytes).take 4095 = stamp ++ message.bytes :=
      List.take_of_length_le (by omega)
    rw [whole] at contains
    have step : appendMessage frame stamp.length size message =
        (frame.snprintf stamp.length size message.bytes).snprintf
          (stamp ++ message.bytes).length ((size - message.bytes.length : Nat) : Int)
          newline := by
      rw [appendMessage, if_neg (by omega), length, Int.natCast_add,
        Int.natCast_sub (Nat.le_of_lt fits)]
    rw [step]
    exact call_contains printed _ (contains_read contains) _ (by omega) (by omega) newline
  · have cut : (stamp ++ message.bytes ++ newline).take 4095 =
        (stamp ++ message.bytes).take 4095 :=
      List.take_append_of_le_length (by omega)
    have step : appendMessage frame stamp.length size message =
        (frame.snprintf stamp.length size message.bytes).snprintf (stamp.length + size) 0
          newline := by
      rw [appendMessage, if_pos (by omega), Int.sub_self]
    obtain ⟨same, buffer⟩ := call_without_room printed (stamp.length + size) newline
    rw [step, cut]
    refine ⟨same, ?_⟩
    rw [buffer]
    exact contains
end Messages

/-! Timestamps leave room. -/
section Timestamps

theorem decimal_length (value digits : Nat) (some_ : 0 < digits) (small : value < 10 ^ digits) :
    (decimal value).length ≤ digits := by
  have positive : ¬ ((value : Int) < 0) := by omega
  rw [decimal, if_neg positive, List.length_map, Int.natAbs_natCast]
  exact (Nat.length_toDigits_le_iff (by decide) some_).mpr small

theorem round_half_even_le (n k : Nat) : roundHalfEven n k ≤ n / 2 ^ k + 1 := by
  rw [roundHalfEven]
  split
  · exact Nat.le_refl _
  · exact Nat.le_succ _

theorem shifted_small (significand shift : Nat) (bits : significand < 2 ^ 53) :
    significand * 2 ^ shift < 10 ^ (53 + shift) := by
  have wide : 2 ^ (53 + shift) ≤ 10 ^ (53 + shift) := Nat.pow_le_pow_left (by decide) _
  rw [Nat.pow_add] at wide
  have below := Nat.mul_lt_mul_of_pos_right bits (Nat.two_pow_pos shift)
  exact Nat.lt_of_lt_of_le below wide

/-- No finite double has more than 1024 bits before the point. -/
theorem integer_part_length (significand exponent : Nat) (bits : significand < 2 ^ 53)
    (finite : exponent < 2047) :
    (decimal (if 1075 ≤ exponent then significand * 2 ^ (exponent - 1075)
      else roundHalfEven significand (1075 - exponent) : Nat)).length ≤ 1024 := by
  split
  · have digits := decimal_length _ _ (by omega) (shifted_small significand (exponent - 1075) bits)
    omega
  · have rounded := round_half_even_le significand (1075 - exponent)
    have divided := Nat.div_le_self significand (2 ^ (1075 - exponent))
    have digits := decimal_length (roundHalfEven significand (1075 - exponent)) 54 (by decide)
      (by omega)
    omega

theorem printed_double_length (seconds : UInt64) : (printedDouble seconds).length ≤ 1025 := by
  have sign : (if seconds.toNat / 2 ^ 63 = 1 then bytesOf (text "-") else []).length ≤ 1 := by
    split <;> decide
  rw [printedDouble]
  split
  · have named : (bytesOf (if seconds.toNat % 2 ^ 52 = 0 then text "inf" else text "nan")).length
        ≤ 3 := by
      split <;> decide
    rw [List.length_append]
    omega
  · rename_i finite
    have exponent := Nat.mod_lt (seconds.toNat / 2 ^ 52) (Nat.two_pow_pos 11)
    have fraction := Nat.mod_lt seconds.toNat (Nat.two_pow_pos 52)
    have digits := integer_part_length
      (if seconds.toNat / 2 ^ 52 % 2 ^ 11 = 0 then seconds.toNat % 2 ^ 52
        else seconds.toNat % 2 ^ 52 + 2 ^ 52)
      (max (seconds.toNat / 2 ^ 52 % 2 ^ 11) 1) (by split <;> omega) (by omega)
    rw [List.length_append]
    exact Nat.add_le_add sign digits |>.trans (by decide)

theorem timestamp_length (seconds : UInt64) : (timestamp seconds).length < 4095 := by
  have printed := printed_double_length seconds
  have around : (bytesOf (text "[ ")).length + (bytesOf (text "s ] ")).length = 6 := by decide
  rw [timestamp, List.length_append, List.length_append]
  omega
end Timestamps

/-! Each function. -/
section Functions
variable (build : StrerrorR) (initialized : Bool) (stack inner : Nat → UInt8)
  (priority : Priority) (seconds : UInt64) (oldErrno : Int32) (error : Text) (message : Formatted)

theorem hand_on_buf (flags : Nat) (buf : Buffer) :
    (handOn initialized priority flags buf).buf = buf := by
  cases initialized <;> rfl

theorem proper_of_contains {frame : Frame} {flags : Nat} {content : List UInt8}
    (before : List Frame) (sound : ∀ other ∈ before, other.Sound) (own : frame.Sound)
    (contains : Contains frame.buffer ((content ++ newline).take 4095)) :
    Proper { frames := before ++ [frame]
             handed := some (handOn initialized priority flags frame.buffer) } content := by
  have all : ∀ other ∈ before ++ [frame], other.Sound := by
    intro other member
    rcases List.mem_append.mp member with old | new
    · exact sound other old
    · rw [List.mem_singleton.mp new]
      exact own
  refine ⟨fun other member => (all other member).within,
    fun other member => (all other member).sizes, _, rfl, ?_, ?_⟩
  · rw [hand_on_buf]
    exact contains_terminated contains
  · rw [hand_on_buf, contains_string contains, c_string_take]

theorem log_text_contains : (appendMessage (onStack stack) 0 textBufferSize message).Sound ∧
    Contains (appendMessage (onStack stack) 0 textBufferSize message).buffer
      ((message.bytes ++ newline).take 4095) :=
  append_message_contains (stack_sound stack) [] rfl 4096 (by decide) rfl message

theorem log_text_proper : Proper (logText initialized stack priority message) message.bytes := by
  obtain ⟨sound, contains⟩ := log_text_contains stack message
  exact proper_of_contains initialized priority [] (by simp) sound contains

theorem log_timestamp_proper :
    Proper (logTimestamp initialized stack priority seconds message)
      (timestamp seconds ++ message.bytes) := by
  have short := timestamp_length seconds
  obtain ⟨stamped, contains⟩ := first_call stack (timestamp seconds)
  rw [List.take_of_length_le (Nat.le_of_lt short)] at contains
  obtain ⟨sound, contains⟩ := append_message_contains stamped _ (contains_read contains)
    (4096 - (timestamp seconds).length) (by omega) (by omega) message
  have size : ((4096 - (timestamp seconds).length : Nat) : Int) =
      textBufferSize - (timestamp seconds).length := Int.natCast_sub (by omega)
  simp only [logTimestamp, Int.zero_add, ← size]
  exact proper_of_contains initialized priority [] (by simp) sound contains

theorem errno_short (short : message.bytes.length < 4096) :
    logErrno build initialized stack inner priority oldErrno error message =
      (errorString build error).map fun tmp =>
        let frame := ((onStack stack).snprintf 0 textBufferSize message.bytes).snprintf
          message.bytes.length ((4096 - message.bytes.length : Nat) : Int) (errnoText oldErrno tmp)
        let logged := logText initialized inner priority (bufferString frame.buffer)
        { logged with frames := frame :: logged.frames } := by
  have other : ¬ ((message.bytes.length : Int) < 0 ∨
      (message.bytes.length : Int) = textBufferSize) := by
    rw [textBufferSize]
    omega
  rw [logErrno, if_neg other, Int.natCast_sub (Nat.le_of_lt short)]
  rfl

theorem cut_twice (bytes : List UInt8) :
    (bytes.take 4095 ++ newline).take 4095 = (bytes ++ newline).take 4095 := by
  by_cases long : 4095 ≤ bytes.length
  · rw [List.take_append_of_le_length (by rw [List.length_take]; omega),
      List.take_append_of_le_length long, List.take_take, Nat.min_self]
  · rw [List.take_of_length_le (Nat.le_of_lt (Nat.lt_of_not_le long))]

/-- `log_text` of the text in another buffer. -/
theorem handed_again {frame : Frame} (sound : frame.Sound) (content : List UInt8)
    (contains : Contains frame.buffer (content.take 4095)) :
    Proper { logText initialized inner priority (bufferString frame.buffer) with
      frames := frame :: (logText initialized inner priority
        (bufferString frame.buffer)).frames } (bytesOf (cString content)) := by
  obtain ⟨own, handed⟩ := log_text_contains inner (bufferString frame.buffer)
  have bytes : (bufferString frame.buffer).bytes = (bytesOf (cString content)).take 4095 := by
    rw [bufferString, formatted_bytes, contains_string contains, c_string_take, bytesOf,
      bytesOf, List.map_take]
  rw [bytes, cut_twice] at handed
  exact proper_of_contains initialized priority [frame] (by simpa using sound) own handed

theorem log_errno_proper (short : message.bytes.length < 4096) (tmp : Text)
    (terminated : errorString build error = some tmp) :
    ∃ logged, logErrno build initialized stack inner priority oldErrno error message =
      some logged ∧ Proper logged (errnoMessage build oldErrno error message) := by
  have shown : errorText build error = tmp := by
    rw [errorString] at terminated
    split at terminated
    · cases terminated
    · exact Option.some.inj terminated
  obtain ⟨printed, contains⟩ := first_call stack message.bytes
  rw [List.take_of_length_le (Nat.le_of_lt_succ short)] at contains
  obtain ⟨sound, whole⟩ := call_contains printed _ (contains_read contains)
    (4096 - message.bytes.length) (by omega) (by omega) (errnoText oldErrno tmp)
  rw [errno_short _ _ _ _ _ _ _ _ short, terminated, errnoMessage, shown]
  exact ⟨_, rfl, handed_again initialized inner priority sound _ whole⟩

/-- The length that is one too long for the buffer passes for an error. -/
theorem log_errno_drops (exact_ : message.bytes.length = 4096) :
    ∃ frame, logErrno build initialized stack inner priority oldErrno error message =
      some { frames := [frame], handed := none } := by
  have equal : (message.bytes.length : Int) = textBufferSize := by
    rw [exact_]
    rfl
  exact ⟨_, if_pos (Or.inr equal)⟩

/-- Beyond it the size that is left is negative. -/
theorem log_errno_wraps (long : 4096 < message.bytes.length) (logged : Logged)
    (returned : logErrno build initialized stack inner priority oldErrno error message =
      some logged) :
    ∃ frame ∈ logged.frames, ∃ size ∈ frame.sizes, size < 0 := by
  have other : ¬ ((message.bytes.length : Int) < 0 ∨
      (message.bytes.length : Int) = textBufferSize) := by
    rw [textBufferSize]
    omega
  rw [logErrno, if_neg other] at returned
  obtain ⟨tmp, _, rfl⟩ := Option.map_eq_some_iff.mp returned
  refine ⟨_, List.mem_cons_self, textBufferSize - message.bytes.length, ?_, ?_⟩
  · simp [Frame.snprintf, onStack]
  · rw [textBufferSize]
    omega

/-- The messages of all three functions are handed on from inside their buffers exactly
when that of `log_errno` is short, and a copied error text ends inside `errbuf`. -/
theorem buffers_proper_iff :
    AllProper build initialized stack inner priority seconds oldErrno error message ↔
      message.bytes.length < 4096 ∧
        (build = .missing → error.length < errorBufferSize) := by
  constructor
  · intro proper
    obtain ⟨logged, returned, proper⟩ := proper.errno
    have short : message.bytes.length < 4096 := by
      rcases Nat.lt_trichotomy message.bytes.length 4096 with short | exact_ | long
      · exact short
      · obtain ⟨frame, dropped⟩ := log_errno_drops build initialized stack inner priority oldErrno
          error message exact_
        obtain ⟨handed, some_, _⟩ := proper.handed
        rw [← Option.some.inj (dropped.symm.trans returned)] at some_
        cases some_
      · obtain ⟨frame, written, size, given, negative⟩ := log_errno_wraps build initialized stack
          inner priority oldErrno error message long logged returned
        exact absurd (proper.sizes frame written size given) (Int.not_le.mpr negative)
    refine ⟨short, fun missing => ?_⟩
    by_contra long
    rw [errno_short _ _ _ _ _ _ _ _ short, errorString,
      if_pos ⟨missing, Nat.le_of_not_lt long⟩] at returned
    cases returned
  · rintro ⟨short, ends⟩
    have terminated : errorString build error = some (errorText build error) := by
      apply if_neg
      rintro ⟨missing, long⟩
      exact absurd (ends missing) (Nat.not_lt.mpr long)
    exact ⟨log_text_proper initialized stack priority message,
      log_timestamp_proper initialized stack priority seconds message,
      log_errno_proper build initialized stack inner priority oldErrno error message short _
        terminated⟩

def letters (count : Nat) (sized : count < 2 ^ 31) : Formatted :=
  ⟨List.replicate count 97, by rwa [List.length_replicate]⟩

/-- A message that is one byte too long is dropped; another byte, and a negative size is
passed on. -/
theorem long_message_lost :
    (∃ frame, logErrno .gnu true (fun _ => 0) (fun _ => 0) .fatal 2
      (text "No such file or directory") (letters 4096 (by decide)) =
        some { frames := [frame], handed := none }) ∧
    ¬ AllProper .gnu true (fun _ => 0) (fun _ => 0) .fatal 0 2 (text "No such file or directory")
      (letters 4097 (by decide)) := by
  refine ⟨log_errno_drops _ _ _ _ _ _ _ _ List.length_replicate, fun proper => ?_⟩
  obtain ⟨logged, returned, proper⟩ := proper.errno
  have long : 4096 < (letters 4097 (by decide)).bytes.length := by
    rw [letters, List.length_replicate]
    decide
  obtain ⟨frame, written, size, given, negative⟩ := log_errno_wraps _ _ _ _ _ _ _ _ long logged
    returned
  exact absurd (proper.sizes frame written size given) (Int.not_le.mpr negative)

example : timestamp 4618441417868443648 = bytesOf (text "[ 6s ] ") := by decide
end Functions
end PteSysbench.LoggerBuffers
