import PteSysbench.ActionSystem
import PteSysbench.DbDriver
import PteSysbench.QuotedText

/-!
Emulated prepared statements of drv_mysql.c with the parameters of sysbench.sql.lua:
`mysql_drv_execute` puts the text of `db_print_value` in the place of every question
mark, where the server-side statement would send `data_len` bytes of the buffer.
-/

namespace PteSysbench.EmulatedStatements

open ActionSystem ByteBuffer DbDriver QuotedText

/-! Parameters of the SQL API. -/
section Params

/-- A parameter with `buffer` of `char[max_len]`. -/
structure CharParam where
  buffer : List UInt8
  dataLen : Nat
  isNull : Bool
  fits : dataLen ≤ buffer.length

inductive Param where
  | bigint (value : Int64) (isNull : Bool)
  | double (bits : UInt64) (isNull : Bool)
  | char (param : CharParam)
  | varchar (param : CharParam)

/-- A number with its conversions to int64_t and double. -/
inductive LuaValue where
  | nil
  | string (bytes : List UInt8)
  | number (integer : Int64) (bits : UInt64)

/-- LuaJIT fills new memory with zeros. -/
def bindCreate (maxLen : Nat) : CharParam :=
  { buffer := List.replicate maxLen 0, dataLen := 0, isNull := false, fits := Nat.zero_le _ }

/-- The smaller of `max_len` and the length of the value or format. -/
def CharParam.len (param : CharParam) (length : Nat) : Nat :=
  if param.buffer.length < length then param.buffer.length else length

theorem len_le (param : CharParam) (length : Nat) :
    param.len length ≤ param.buffer.length ∧ param.len length ≤ length := by
  unfold CharParam.len
  split <;> omega

/-- Bytes copied to the front of the buffer; what lies behind its end is not the parameter's. -/
def overlay (buffer bytes : List UInt8) : List UInt8 :=
  bytes.take buffer.length ++ buffer.drop bytes.length

theorem overlay_length (buffer bytes : List UInt8) :
    (overlay buffer bytes).length = buffer.length := by
  simp [overlay]
  omega

/-- `ffi.copy` of `len` bytes. -/
def CharParam.setString (param : CharParam) (value : List UInt8) : CharParam :=
  let len := param.len value.length
  { buffer := overlay param.buffer (value.take len), dataLen := len, isNull := false
    fits := (len_le param value.length).1.trans_eq (overlay_length _ _).symm }

/-- `sb_rand_str` reads the format as a C string and writes no terminator. A draw can round up
to the character behind '9' or 'z'. -/
def sbRandStr (digits : Nat → Fin 11) (letters : Nat → Fin 27) (fmt : List UInt8) : List UInt8 :=
  (untilTerminator fmt).mapIdx fun i c =>
    if c = 35 then 48 + UInt8.ofNat (digits i)
    else if c = 64 then 97 + UInt8.ofNat (letters i)
    else c

def CharParam.setRandStr (param : CharParam) (digits : Nat → Fin 11) (letters : Nat → Fin 27)
    (fmt : List UInt8) : CharParam :=
  { buffer := overlay param.buffer (sbRandStr digits letters fmt), dataLen := param.len fmt.length
    isNull := false
    fits := (len_le param fmt.length).1.trans_eq (overlay_length _ _).symm }

/-- `sql_param.set` of a string parameter. A number has no length: the call fails behind the
NULL mark. -/
def CharParam.set (param : CharParam) : LuaValue → CharParam
  | .nil => { param with isNull := true }
  | .string value => param.setString value
  | .number _ _ => { param with isNull := false }

/-- `sql_param.set`. A string is no number: the call fails behind the NULL mark. -/
def Param.set : Param → LuaValue → Param
  | .char param, value => .char (param.set value)
  | .varchar param, value => .varchar (param.set value)
  | .bigint old _, .nil => .bigint old true
  | .bigint _ _, .number integer _ => .bigint integer false
  | .bigint old _, .string _ => .bigint old false
  | .double old _, .nil => .double old true
  | .double _ _, .number _ bits => .double bits false
  | .double old _, .string _ => .double old false

/-- `sql_param.set_rand_str`: an error for a number, behind the NULL mark. -/
def Param.setRandStr (digits : Nat → Fin 11) (letters : Nat → Fin 27) (fmt : List UInt8) :
    Param → Param
  | .char param => .char (param.setRandStr digits letters fmt)
  | .varchar param => .varchar (param.setRandStr digits letters fmt)
  | .bigint old _ => .bigint old false
  | .double old _ => .double old false

/-- The buffer as a C function finds it: what lies behind its end counts up to a terminator. -/
def CharParam.inMemory (param : CharParam) (behind : List UInt8) : CharBuffer :=
  { bytes := param.buffer ++ behind ++ [0], dataLen := param.dataLen
    fits := by
      have := param.fits
      simp only [List.length_append, List.length_singleton]
      omega }

/-- The bind structure of a parameter. -/
def Param.bind (behind : List UInt8) : Param → DbBind
  | .bigint value isNull => ⟨.bigint value, some isNull⟩
  | .double bits isNull => ⟨.double bits, some isNull⟩
  | .char param => ⟨.char (param.inMemory behind), some param.isNull⟩
  | .varchar param => ⟨.varchar (param.inMemory behind), some param.isNull⟩
end Params

/-! The text of an execution. -/
section Building

/-- What the execution finds in memory: the bytes behind each parameter's buffer, those
of new memory, and the sizes that `realloc` can give. -/
structure Memory where
  behind : Nat → List UInt8
  garbage : Nat → UInt8
  allocates : Nat → Bool

/-- `buf`, `buflen` and `j` of `mysql_drv_execute`. -/
structure Build where
  buf : Buffer
  buflen : Nat
  j : Nat

def Build.grow (b : Build) : Build :=
  { b with buflen := if 0 < b.buflen then b.buflen * 2 else 256 }

/-- `realloc` where there is no room for one more byte and a terminator, or on demand. -/
def ensureRoom (memory : Memory) (needRealloc : Bool) (b : Build) : Option Build :=
  if b.buflen ≤ b.j + 1 ∨ needRealloc then
    if memory.allocates b.grow.buflen then some b.grow else none
  else some b

/-- What `db_print_value` prints when there is room. -/
def shown (format : FloatFormat) (var : DbBind) : List UInt8 :=
  if var.null then nullText else printedValue format var.value

/-- The label `again`, for a question mark. -/
def appendValue (format : FloatFormat) (memory : Memory) (var : DbBind) :
    Nat → Bool → Build → Option Build
  | 0, _, _ => none
  | fuel + 1, needRealloc, b =>
      (ensureRoom memory needRealloc b).bind fun b =>
        let (buf, n) := dbPrintValue format var b.buf b.j (b.buflen - b.j)
        if n < 0 then appendValue format memory var fuel true { b with buf := buf }
        else some { b with buf := buf, j := b.j + n.toNat }

/-- The loop over the query. A question mark without a bound parameter reads outside of
`bound_param`. -/
def buildText (format : FloatFormat) (memory : Memory) :
    List UInt8 → List DbBind → Bool → Build → Option Build
  | [], _, _, b => some b
  | c :: rest, vars, needRealloc, b =>
      if c = 63 then
        match vars with
        | [] => none
        | var :: vars =>
            (appendValue format memory var ((shown format var).length + 2) needRealloc b).bind
              fun b => buildText format memory rest vars false b
      else
        (ensureRoom memory needRealloc b).bind fun b =>
          buildText format memory rest vars false
            { b with buf := b.buf.write b.j [c], j := b.j + 1 }

/-- The text for `mysql_drv_query`. An empty query has no buffer for its terminator. -/
def mysqlDrvExecute (format : FloatFormat) (memory : Memory) (query : CString)
    (vars : List DbBind) : Option (List UInt8) :=
  (buildText format memory query.bytes vars true ⟨allocated memory.garbage, 0, 0⟩).bind fun b =>
    if b.buflen = 0 then none else some ((b.buf.write b.j [0]).read 0 b.j)

/-- A query with a text in the place of each question mark. -/
def substituted : List UInt8 → List (List UInt8) → List UInt8
  | [], _ => []
  | c :: rest, texts =>
      if c = 63 then
        match texts with
        | [] => []
        | text :: texts => text ++ substituted rest texts
      else c :: substituted rest texts

/-- Printing at `j` leaves the text before `j`. -/
theorem snprintf_before (buffer : Buffer) (j buflen : Nat) (text : List UInt8) :
    (snprintf buffer j buflen text).read 0 j = buffer.read 0 j := by
  unfold snprintf
  split
  · rfl
  · exact read_write_outside _ _ _ _ _ (Or.inl (by omega))

theorem snprintf_appends (buffer : Buffer) (j buflen : Nat) (text : List UInt8)
    (room : text.length < buflen) :
    (snprintf buffer j buflen text).read 0 (j + text.length) = buffer.read 0 j ++ text := by
  have whole : text.take (buflen - 1) = text := List.take_of_length_le (by omega)
  rw [read_add, snprintf_before]
  unfold snprintf
  rw [if_neg (by omega), whole]
  have back := read_write_inside buffer j 0 text.length (text ++ [0]) (by simp)
  simpa using back

theorem grow_longer (b : Build) : b.buflen < b.grow.buflen := by
  unfold Build.grow
  by_cases some_ : 0 < b.buflen
  · simp only [if_pos some_]
    omega
  · simp only [if_neg some_]
    omega

theorem ensure_room_text (memory : Memory) (needRealloc : Bool) (b t : Build)
    (ensured : ensureRoom memory needRealloc b = some t) : t.buf = b.buf ∧ t.j = b.j := by
  unfold ensureRoom at ensured
  split at ensured
  · obtain ⟨_, ensured⟩ := Option.ite_none_right_eq_some.mp ensured
    obtain rfl := Option.some.inj ensured
    exact ⟨rfl, rfl⟩
  · obtain rfl := Option.some.inj ensured
    exact ⟨rfl, rfl⟩

/-- Both outcomes of `db_print_value`. -/
theorem print_value_cases (format : FloatFormat) (var : DbBind) (buffer : Buffer)
    (j buflen : Nat) :
    ((shown format var).length < buflen ∧
      dbPrintValue format var buffer j buflen =
        (snprintf buffer j buflen (shown format var), ((shown format var).length : Int))) ∨
    (buflen ≤ (shown format var).length ∧
      dbPrintValue format var buffer j buflen =
        (snprintf buffer j buflen (shown format var), -1)) := by
  unfold dbPrintValue
  by_cases room : (shown format var).length < buflen
  · exact Or.inl ⟨room, by rw [shown] at room; simp [shown, room]⟩
  · exact Or.inr ⟨Nat.le_of_not_lt room, by rw [shown] at room; simp [shown, room]⟩

theorem append_value_text (format : FloatFormat) (memory : Memory) (var : DbBind) (fuel : Nat)
    (needRealloc : Bool) (b t : Build)
    (done : appendValue format memory var fuel needRealloc b = some t) :
    t.buf.read 0 t.j = b.buf.read 0 b.j ++ shown format var := by
  induction fuel generalizing needRealloc b with
  | zero => cases done
  | succ fuel ih =>
      obtain ⟨roomy, ensured, done⟩ := Option.bind_eq_some_iff.mp done
      obtain ⟨sameBuf, sameJ⟩ := ensure_room_text memory needRealloc b roomy ensured
      obtain ⟨room, printed⟩ | ⟨_, printed⟩ :=
        print_value_cases format var roomy.buf roomy.j (roomy.buflen - roomy.j)
      · rw [printed] at done
        obtain rfl := Option.some.inj done
        simp only [Int.toNat_natCast]
        rw [snprintf_appends _ _ _ _ room, sameBuf, sameJ]
      · rw [printed] at done
        have again := ih true _ done
        rw [again]
        simp only
        rw [snprintf_before, sameBuf, sameJ]

/-- The loop puts the printed values in the places of the question marks. -/
theorem build_text (format : FloatFormat) (memory : Memory) (query : List UInt8)
    (vars : List DbBind) (needRealloc : Bool) (b t : Build)
    (done : buildText format memory query vars needRealloc b = some t) :
    t.buf.read 0 t.j =
      b.buf.read 0 b.j ++ substituted query (vars.map (shown format)) := by
  induction query generalizing vars needRealloc b with
  | nil =>
      obtain rfl := Option.some.inj done
      simp [substituted]
  | cons c rest ih =>
      unfold buildText at done
      by_cases mark : c = 63
      · rw [if_pos mark] at done
        cases vars with
        | nil => cases done
        | cons var vars =>
            obtain ⟨next, appended, done⟩ := Option.bind_eq_some_iff.mp done
            rw [ih vars false next done, append_value_text format memory var _ _ b next appended]
            simp [substituted, mark]
      · rw [if_neg mark] at done
        obtain ⟨roomy, ensured, done⟩ := Option.bind_eq_some_iff.mp done
        obtain ⟨sameBuf, sameJ⟩ := ensure_room_text memory needRealloc b roomy ensured
        rw [ih vars false _ done]
        simp only [substituted, if_neg mark]
        have before := read_write_outside roomy.buf roomy.j 0 roomy.j [c] (Or.inl (by omega))
        have here := read_write_same roomy.buf roomy.j [c]
        rw [read_add, before, Nat.zero_add]
        simp only [List.length_singleton] at here
        rw [here, sameBuf, sameJ, List.append_assoc]
        rfl

theorem execute_text (format : FloatFormat) (memory : Memory) (query : CString)
    (vars : List DbBind) (text : List UInt8)
    (sent : mysqlDrvExecute format memory query vars = some text) :
    text = substituted query.bytes (vars.map (shown format)) := by
  obtain ⟨b, built, sent⟩ := Option.bind_eq_some_iff.mp sent
  obtain ⟨_, sent⟩ := Option.ite_none_left_eq_some.mp sent
  obtain rfl := Option.some.inj sent
  rw [read_write_outside _ _ _ _ _ (Or.inl (by omega)),
    build_text format memory query.bytes vars true _ b built]
  rfl
end Building

/-! The loops end. -/
section Ending
variable (format : FloatFormat) (memory : Memory)

/-- There is room for the terminator, or nothing has been allocated. -/
def Roomy (b : Build) : Prop := b.j < b.buflen ∨ b.j = 0 ∧ b.buflen = 0

theorem ensure_room_some (allocates : ∀ size, memory.allocates size) (needRealloc : Bool)
    (b : Build) (roomy : Roomy b) :
    ∃ t, ensureRoom memory needRealloc b = some t ∧ b.j + 1 < t.buflen ∧ b.buflen ≤ t.buflen ∧
      (needRealloc → b.buflen < t.buflen) := by
  have longer := grow_longer b
  unfold ensureRoom
  by_cases short : b.buflen ≤ b.j + 1 ∨ needRealloc
  · rw [if_pos short, if_pos (allocates _)]
    refine ⟨b.grow, rfl, ?_, by omega, fun _ => longer⟩
    rcases roomy with room | ⟨start, none_⟩
    · simp only [Build.grow, if_pos (Nat.zero_lt_of_lt room)] at longer ⊢
      omega
    · simp [Build.grow, start, none_]
  · rw [if_neg short]
    obtain ⟨long, notNeeded⟩ := not_or.mp short
    exact ⟨b, rfl, by omega, Nat.le_refl _, fun needed => absurd needed notNeeded⟩

/-- A value is appended after as many reallocations as it has bytes, at most. -/
theorem append_value_some (allocates : ∀ size, memory.allocates size) (var : DbBind) (fuel : Nat)
    (needRealloc : Bool) (b : Build) (roomy : Roomy b) (fueled : 0 < fuel)
    (enough : b.j + (shown format var).length + 1 ≤
      b.buflen + fuel - if needRealloc then 0 else 1) :
    ∃ t, appendValue format memory var fuel needRealloc b = some t ∧ t.j < t.buflen := by
  induction fuel generalizing needRealloc b with
  | zero => omega
  | succ fuel ih =>
      obtain ⟨next, ensured, room, longer, needed⟩ :=
        ensure_room_some memory allocates needRealloc b roomy
      obtain ⟨_, sameJ⟩ := ensure_room_text memory needRealloc b next ensured
      unfold appendValue
      rw [ensured, Option.bind_some]
      obtain ⟨fits, printed⟩ | ⟨cut, printed⟩ :=
        print_value_cases format var next.buf next.j (next.buflen - next.j)
      · rw [printed]
        refine ⟨_, rfl, ?_⟩
        simp only [Int.toNat_natCast]
        omega
      · rw [printed]
        -- cut short: there is more room now, and one turn less
        have more : next.j + (shown format var).length + 1 ≤ next.buflen + fuel := by
          cases needRealloc with
          | true =>
              have := needed rfl
              simp only [if_true] at enough
              omega
          | false =>
              simp only [Bool.false_eq_true, if_false] at enough
              omega
        refine ih true _ (Or.inl ?_) ?_ ?_
        · simp only
          omega
        · omega
        · simpa using more

theorem build_text_some (allocates : ∀ size, memory.allocates size) (query : List UInt8)
    (vars : List DbBind) (bound : query.count 63 ≤ vars.length) (needRealloc : Bool) (b : Build)
    (roomy : Roomy b) :
    ∃ t, buildText format memory query vars needRealloc b = some t ∧
      (query = [] ∧ t = b ∨ t.j < t.buflen) := by
  induction query generalizing vars needRealloc b with
  | nil => exact ⟨b, rfl, Or.inl ⟨rfl, rfl⟩⟩
  | cons c rest ih =>
      -- the rest of the query keeps the room it finds
      have onward : ∀ next vars, next.j < next.buflen → rest.count 63 ≤ vars.length →
          ∃ t, buildText format memory rest vars false next = some t ∧ t.j < t.buflen := by
        intro next vars room bound
        obtain ⟨t, built, ⟨_, rfl⟩ | room_⟩ := ih vars bound false next (Or.inl room)
        · exact ⟨t, built, room⟩
        · exact ⟨t, built, room_⟩
      unfold buildText
      by_cases mark : c = 63
      · rw [if_pos mark]
        rw [mark, List.count_cons_self] at bound
        cases vars with
        | nil => exact absurd bound (Nat.not_succ_le_zero _)
        | cons var vars =>
            obtain ⟨next, appended, room⟩ := append_value_some format memory allocates var
              ((shown format var).length + 2) needRealloc b roomy (Nat.succ_pos _) (by
                rcases roomy with room | ⟨start, none_⟩ <;> split <;> omega)
            obtain ⟨t, built, room_⟩ := onward next vars room (Nat.le_of_succ_le_succ bound)
            exact ⟨t, by simp only [appended, Option.bind_some, built], Or.inr room_⟩
      · rw [if_neg mark]
        rw [List.count_cons_of_ne mark] at bound
        obtain ⟨next, ensured, room, _, _⟩ :=
          ensure_room_some memory allocates needRealloc b roomy
        obtain ⟨_, sameJ⟩ := ensure_room_text memory needRealloc b next ensured
        obtain ⟨t, built, room_⟩ := onward
          { next with buf := next.buf.write next.j [c], j := next.j + 1 } vars
          (by simp only; omega) bound
        exact ⟨t, by simp only [ensured, Option.bind_some, built], Or.inr room_⟩

/-- With memory for its text, an execution of a query that is not empty sends it. -/
theorem execute_sends (allocates : ∀ size, memory.allocates size) (query : CString)
    (vars : List DbBind) (some_ : query.bytes ≠ [])
    (bound : query.bytes.count 63 ≤ vars.length) :
    mysqlDrvExecute format memory query vars =
      some (substituted query.bytes (vars.map (shown format))) := by
  obtain ⟨t, built, ⟨none_, _⟩ | room⟩ := build_text_some format memory allocates query.bytes vars
    bound true ⟨allocated memory.garbage, 0, 0⟩ (Or.inr ⟨rfl, rfl⟩)
  · exact absurd none_ some_
  · have sent : mysqlDrvExecute format memory query vars =
        some ((t.buf.write t.j [0]).read 0 t.j) := by
      unfold mysqlDrvExecute
      rw [built, Option.bind_some, if_neg (by omega)]
    rw [sent, execute_text format memory query vars _ sent]
end Ending

/-! Values as the server reads them. -/
section Values

/-- What a backslash and a byte denote in a string literal of MySQL. -/
def escapeMeaning (c : UInt8) : List UInt8 :=
  if c = 48 then [0]
  else if c = 98 then [8]
  else if c = 110 then [10]
  else if c = 114 then [13]
  else if c = 116 then [9]
  else if c = 90 then [26]
  else if c = 37 ∨ c = 95 then [92, c]
  else [c]

theorem escape_meaning_denotes (c : UInt8) : escapeMeaning c ≠ [] := by
  unfold escapeMeaning
  split_ifs <;> simp

theorem escape_meaning_short (c : UInt8) : (escapeMeaning c).length ≤ 2 := by
  unfold escapeMeaning
  split_ifs <;> simp

theorem quote_not_backslash : (39 : UInt8) ≠ 92 := by decide

def sqlRule : Rule UInt8 :=
  { quote := 39, escape := 92, meaning := escapeMeaning, apart := quote_not_backslash
    denotes := escape_meaning_denotes, short := escape_meaning_short }

/-- The buffer of a CHAR or VARCHAR value. -/
def textOf : BindValue → Option CharBuffer
  | .char value => some value
  | .varchar value => some value
  | _ => none

/-- The text put in for a string is one literal that denotes the bytes which the
server-side statement sends. -/
def ReadsBack (format : FloatFormat) (var : DbBind) : Prop :=
  var.null = false → ∀ value ∈ textOf var.value,
    literalValue sqlRule (shown format var) = some value.data

/-- The byte behind the value is a terminator. -/
def Terminated (value : CharBuffer) : Prop := (value.bytes.drop value.dataLen).headD 0 = 0

/-- No terminator, quote or backslash in the value, but for a backslash that denotes itself,
and a terminator behind it. -/
def Clean (var : DbBind) : Prop :=
  var.null = false → ∀ value ∈ textOf var.value,
    0 ∉ value.data ∧ plain sqlRule value.data ∧ Terminated value

/-- Not both: the value needs escaping and the text in memory goes on behind it. -/
def SingleDefect (var : DbBind) : Prop :=
  var.null = false → ∀ value ∈ textOf var.value, plain sqlRule value.data ∨ Terminated value

theorem until_terminator_take (bytes : List UInt8) (n : Nat) (clean : 0 ∉ bytes.take n) :
    untilTerminator bytes = bytes.take n ++ untilTerminator (bytes.drop n) := by
  have kept : ∀ byte ∈ bytes.take n, (byte != 0) = true := by
    intro byte member
    simp only [bne_iff_ne]
    rintro rfl
    exact clean member
  have split : untilTerminator (bytes.take n ++ bytes.drop n) =
      bytes.take n ++ untilTerminator (bytes.drop n) := List.takeWhile_append_of_pos kept
  rwa [List.take_append_drop] at split

/-- A value with a terminator is cut short. -/
theorem until_terminator_short (bytes : List UInt8) (n : Nat) (early : 0 ∈ bytes.take n) :
    (untilTerminator bytes).length < (bytes.take n).length := by
  have cut : untilTerminator (bytes.take n) ≠ bytes.take n := by
    intro whole
    rw [← whole] at early
    exact until_terminator_clean _ early
  have front : (untilTerminator (bytes.take n)) <+: bytes.take n := List.takeWhile_prefix _
  have shorter : (untilTerminator (bytes.take n)).length < (bytes.take n).length := by
    refine Nat.lt_of_le_of_ne front.length_le fun same => ?_
    exact cut (front.eq_of_length same)
  have same : untilTerminator (bytes.take n ++ bytes.drop n) = untilTerminator (bytes.take n) :=
    List.takeWhile_append.trans (if_neg (Nat.ne_of_lt shorter))
  rw [List.take_append_drop] at same
  rwa [same]

theorem terminated_iff (value : CharBuffer) :
    Terminated value ↔ untilTerminator (value.bytes.drop value.dataLen) = [] := by
  unfold Terminated untilTerminator
  cases value.bytes.drop value.dataLen with
  | nil => simp
  | cons byte rest => simp [List.takeWhile_cons]

theorem text_reads_back_iff (value : CharBuffer)
    (single : plain sqlRule value.data ∨ Terminated value) :
    literalValue sqlRule (quoted (untilTerminator value.bytes)) = some value.data ↔
      0 ∉ value.data ∧ plain sqlRule value.data ∧ Terminated value := by
  change literalValue sqlRule (enclosed sqlRule (untilTerminator value.bytes)) = _ ↔ _
  by_cases early : 0 ∈ value.data
  · -- fewer bytes are printed than the value has
    refine ⟨fun read => ?_, fun clean => absurd early clean.1⟩
    have short := until_terminator_short value.bytes value.dataLen early
    have bound := value_length sqlRule _ _ read
    exact absurd bound (Nat.not_le_of_lt short)
  have printed := until_terminator_take value.bytes value.dataLen early
  rw [printed]
  by_cases ended : Terminated value
  · rw [(terminated_iff value).mp ended, List.append_nil]
    exact (reads_back_iff sqlRule value.data).trans
      ⟨fun simple => ⟨early, simple, ended⟩, fun clean => clean.2.1⟩
  · refine ⟨fun read => ?_, fun clean => absurd clean.2.2 ended⟩
    have simple := single.resolve_right ended
    exact absurd read (longer_reads_more sqlRule value.data _ simple
      fun none_ => ended ((terminated_iff value).mpr none_))

theorem reads_back_iff_clean (format : FloatFormat) (var : DbBind) (single : SingleDefect var) :
    ReadsBack format var ↔ Clean var := by
  have each : var.null = false → ∀ value ∈ textOf var.value,
      (literalValue sqlRule (shown format var) = some value.data ↔
        0 ∉ value.data ∧ plain sqlRule value.data ∧ Terminated value) := by
    intro notNull value text
    have shown_ : shown format var = quoted (untilTerminator value.bytes) := by
      unfold shown
      rw [notNull]
      cases kind : var.value <;> rw [kind] at text <;> cases text <;> rfl
    rw [shown_]
    exact text_reads_back_iff value (single notNull value text)
  constructor
  · exact fun reads notNull value text => (each notNull value text).mp (reads notNull value text)
  · exact fun clean notNull value text => (each notNull value text).mpr (clean notNull value text)
end Values

/-! Updates and executions in any order. -/
section Runs

/-- The text sent, and the parameters as they were found in memory. -/
structure Execution where
  text : List UInt8
  vars : List DbBind

structure Statement where
  params : List Param
  last : Option Execution

inductive Action where
  | set (i : Nat) (value : LuaValue)
  | setRandStr (i : Nat) (digits : Nat → Fin 11) (letters : Nat → Fin 27) (fmt : List UInt8)
  | execute (memory : Memory)

/-- `bound_param` points to the buffers themselves. -/
def boundParam (memory : Memory) (params : List Param) : List DbBind :=
  params.mapIdx fun i param => param.bind (memory.behind i)

/-- An execution that sends nothing is no step. -/
def step (format : FloatFormat) (query : CString) (stmt : Statement) : Action → Option Statement
  | .set i value => some { stmt with params := stmt.params.modify i fun param => param.set value }
  | .setRandStr i digits letters fmt =>
      some { stmt with params := stmt.params.modify i (Param.setRandStr digits letters fmt) }
  | .execute memory =>
      let vars := boundParam memory stmt.params
      (mysqlDrvExecute format memory query vars).map fun text =>
        { stmt with last := some { text := text, vars := vars } }

/-- The parameters that the question marks of the query use. -/
def used (query : CString) (vars : List DbBind) : List DbBind :=
  vars.take (query.bytes.count 63)

/-- The last execution has sent the query with a text for each parameter it uses, each of
which reads back as the value that the server-side statement sends. -/
def SendsValues (format : FloatFormat) (query : CString) (stmt : Statement) : Prop :=
  ∀ sent ∈ stmt.last, sent.text = substituted query.bytes (sent.vars.map (shown format)) ∧
    ∀ var ∈ used query sent.vars, ReadsBack format var

def SendsClean (query : CString) (stmt : Statement) : Action → Prop
  | .execute memory => ∀ var ∈ used query (boundParam memory stmt.params), Clean var
  | _ => True

def SendsSingle (query : CString) (stmt : Statement) : Action → Prop
  | .execute memory => ∀ var ∈ used query (boundParam memory stmt.params), SingleDefect var
  | _ => True

/-- After `bind_param`. -/
def bound (params : List Param) : Statement := { params := params, last := none }

theorem clean_single (var : DbBind) (clean : Clean var) : SingleDefect var :=
  fun notNull value text => Or.inl (clean notNull value text).2.1

theorem step_sends (format : FloatFormat) (query : CString) (s : Statement) (a : Action)
    (t : Statement) (sends : SendsValues format query s) (clean : SendsClean query s a)
    (taken : step format query s a = some t) : SendsValues format query t := by
  cases a with
  | set i value =>
      obtain rfl := Option.some.inj taken
      exact sends
  | setRandStr i digits letters fmt =>
      obtain rfl := Option.some.inj taken
      exact sends
  | execute memory =>
      obtain ⟨text, executed, rfl⟩ := Option.map_eq_some_iff.mp taken
      intro sent this
      obtain rfl := Option.some.inj this
      refine ⟨execute_text format memory query _ text executed, fun var member => ?_⟩
      have here := clean var member
      exact (reads_back_iff_clean format var (clean_single var here)).mpr here

theorem step_needs_clean (format : FloatFormat) (query : CString) (s : Statement) (a : Action)
    (t : Statement) (single : SendsSingle query s a) (taken : step format query s a = some t)
    (sends : SendsValues format query t) : SendsClean query s a := by
  cases a with
  | set i value => trivial
  | setRandStr i digits letters fmt => trivial
  | execute memory =>
      obtain ⟨text, executed, rfl⟩ := Option.map_eq_some_iff.mp taken
      intro var member
      exact (reads_back_iff_clean format var (single var member)).mp ((sends _ rfl).2 var member)

/-- Along every run whose executions find clean values, each is sent as the server-side
statement would send it; and unless a value both needs escaping and is followed by more
text in memory, no other runs do. -/
theorem emulation_sends_values (format : FloatFormat) (query : CString) (params : List Param)
    (actions : List Action) :
    (Guarded (step format query) (SendsClean query) (bound params) actions →
      Always (step format query) (SendsValues format query) (bound params) actions) ∧
    (Guarded (step format query) (SendsSingle query) (bound params) actions →
      Always (step format query) (SendsValues format query) (bound params) actions →
      Guarded (step format query) (SendsClean query) (bound params) actions) := by
  have start : SendsValues format query (bound params) := fun sent no => (nomatch no)
  exact ⟨guarded_keeps (step_sends format query) (bound params) actions start,
    guarded_of_always (step_needs_clean format query) (bound params) actions⟩

theorem mark_visible : 0 ∉ ([63] : List UInt8) := by decide

theorem mark_sized : ([63] : List UInt8).length < 2 ^ 63 := by decide

def markQuery : CString := ⟨[63], mark_visible, mark_sized⟩

def markFormat : FloatFormat := ⟨fun _ => [63], fun _ => mark_visible⟩

def roomyMemory (behind : List UInt8) : Memory := ⟨fun _ => behind, fun _ => 0, fun _ => true⟩

/-- Two random digits in a buffer of three bytes are sent. -/
theorem digits_sent :
    Always (step markFormat markQuery) (SendsValues markFormat markQuery)
      (bound [.varchar (bindCreate 3)])
      [.setRandStr 0 (fun _ => 7) (fun _ => 0) [35, 35], .execute (roomyMemory [97])] := by
  refine (emulation_sends_values markFormat markQuery _ _).1 ?_
  intro s taken
  obtain rfl := Option.some.inj taken
  refine ⟨trivial, fun t taken => ⟨fun var member => ?_, trivial⟩⟩
  obtain rfl := List.mem_singleton.mp member
  intro _ value text
  obtain rfl := Option.some.inj text
  exact ⟨by decide, by decide, rfl⟩

/-- Values that are not sent: a quote, one byte after two, and a byte that fills its buffer
with another one behind it. -/
theorem values_not_sent :
    ¬ Always (step markFormat markQuery) (SendsValues markFormat markQuery)
        (bound [.varchar (bindCreate 2)]) [.set 0 (.string [39]), .execute (roomyMemory [])] ∧
      ¬ Always (step markFormat markQuery) (SendsValues markFormat markQuery)
        (bound [.varchar (bindCreate 2)])
        [.set 0 (.string [97, 98]), .set 0 (.string [99]), .execute (roomyMemory [])] ∧
      ¬ Always (step markFormat markQuery) (SendsValues markFormat markQuery)
        (bound [.varchar (bindCreate 1)]) [.set 0 (.string [97]), .execute (roomyMemory [98])] := by
  refine ⟨fun all => ?_, fun all => ?_, fun all => ?_⟩
  · have sends := (all.2 _ rfl).2 _ rfl
    exact absurd ((sends _ rfl).2 _ List.mem_cons_self rfl _ rfl) (by decide)
  · have sends := ((all.2 _ rfl).2 _ rfl).2 _ rfl
    exact absurd ((sends _ rfl).2 _ List.mem_cons_self rfl _ rfl) (by decide)
  · have sends := (all.2 _ rfl).2 _ rfl
    exact absurd ((sends _ rfl).2 _ List.mem_cons_self rfl _ rfl) (by decide)
end Runs
end PteSysbench.EmulatedStatements
