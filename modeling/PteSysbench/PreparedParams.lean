import PteSysbench.ActionSystem
import PteSysbench.DbDriver

/-!
Parameters of a server-side prepared statement of drv_pgsql.c: the buffers
`pgsql_drv_bind_param` allocates and what `pgsql_drv_execute` puts into them
before it hands the array to PQexecPrepared.
-/

namespace PteSysbench.PreparedParams

open ActionSystem ByteBuffer DbDriver

def maxParamLength : Nat := 256

/-- A bound parameter and its entry of `pvalues`. -/
structure Param where
  var : DbBind
  pvalue : Buffer

/-- A prepared statement with bound parameters. `sent` is the array of the last
PQexecPrepared, with the values bound at the time. -/
structure PgStatement where
  params : List Param
  sent : List (DbBind × Option Buffer)

/-- Every parameter gets a buffer of its own; `malloced` is its content. -/
def pgsqlDrvBindParam (vars : List DbBind) (malloced : Nat → Nat → UInt8) : PgStatement :=
  { params := vars.zipIdx.map fun (var, i) => { var := var, pvalue := allocated (malloced i) }
    sent := [] }

/-- `memcpy` of at most MAX_PARAM_LENGTH bytes, then a terminator at `len`. -/
def copyChars (value : CharBuffer) (buffer : Buffer) : Buffer :=
  (buffer.write 0 (value.data.take maxParamLength)).write value.dataLen [0]

/-- The body of the conversion loop. -/
def convertParam (format : FloatFormat) (param : Param) : Param :=
  if param.var.null then param
  else
    match param.var.value with
    | .char value => { param with pvalue := copyChars value param.pvalue }
    | .varchar value => { param with pvalue := copyChars value param.pvalue }
    | _ => { param with pvalue :=
        (dbPrintValue format param.var param.pvalue 0 maxParamLength).1 }

/-- The entries of `pvalues` are never null pointers after `bind_param`. -/
def pgsqlDrvExecute (format : FloatFormat) (stmt : PgStatement) : PgStatement :=
  let params := stmt.params.map (convertParam format)
  { params := params, sent := params.map fun param => (param.var, some param.pvalue) }

/-- A new value or NULL mark of the i-th parameter. -/
def updateParam (stmt : PgStatement) (i : Nat) (var : DbBind) : PgStatement :=
  { stmt with params := stmt.params.modify i fun param => { param with var := var } }

inductive ParamAction where
  | update (i : Nat) (var : DbBind)
  | execute

def step (format : FloatFormat) (stmt : PgStatement) : ParamAction → Option PgStatement
  | .update i var => some (updateParam stmt i var)
  | .execute => some (pgsqlDrvExecute format stmt)

/-! What the server is to receive. -/
section Representation

/-- The text of a bound value: the significant bytes of a string, else what
`db_print_value` prints. -/
def boundText (format : FloatFormat) : BindValue → List UInt8
  | .char value => value.data
  | .varchar value => value.data
  | value => printedValue format value

/-- The buffer holds the whole text as a C string. -/
structure HoldsText (buffer : Buffer) (text : List UInt8) : Prop where
  room : text.length + 1 ≤ maxParamLength
  clean : 0 ∉ text
  stored : buffer.read 0 (text.length + 1) = text ++ [0]

def Represents (format : FloatFormat) (var : DbBind) : Option Buffer → Prop
  | none => var.null = true
  | some buffer => var.null = false ∧ HoldsText buffer (boundText format var.value)

structure ParamsSound (format : FloatFormat) (stmt : PgStatement) : Prop where
  represented : ∀ entry ∈ stmt.sent, Represents format entry.1 entry.2
  inside : ∀ param ∈ stmt.params, param.pvalue.Within maxParamLength

/-- A parameter the loop converts in full. -/
def Sendable (format : FloatFormat) (var : DbBind) : Prop :=
  var.null = false ∧ (boundText format var.value).length < maxParamLength ∧
    0 ∉ boundText format var.value

/-- Every execution is made with sendable parameters. -/
def SendsSendable (format : FloatFormat) (stmt : PgStatement) : ParamAction → Prop
  | .update _ _ => True
  | .execute => ∀ param ∈ stmt.params, Sendable format param.var

theorem data_length (value : CharBuffer) : value.data.length = value.dataLen := by
  simp [CharBuffer.data, value.fits]

theorem snprintf_within (buffer : Buffer) (text : List UInt8)
    (inside : buffer.Within maxParamLength) :
    (snprintf buffer 0 maxParamLength text).Within maxParamLength := by
  unfold snprintf
  rw [if_neg (by decide), within_write _ _ _ _ (by simp)]
  refine ⟨inside, ?_⟩
  simp only [List.length_append, List.length_take, List.length_singleton]
  unfold maxParamLength
  omega

theorem snprintf_holds (buffer : Buffer) (text : List UInt8)
    (short : text.length < maxParamLength) (clean : 0 ∉ text) :
    HoldsText (snprintf buffer 0 maxParamLength text) text := by
  have whole : text.take (maxParamLength - 1) = text :=
    List.take_of_length_le (Nat.le_sub_one_of_lt short)
  refine ⟨short, clean, ?_⟩
  unfold snprintf
  rw [if_neg (by decide), whole]
  have back := read_write_same buffer 0 (text ++ [0])
  rwa [List.length_append, List.length_singleton] at back

theorem copy_chars_within_iff (value : CharBuffer) (buffer : Buffer)
    (inside : buffer.Within maxParamLength) :
    (copyChars value buffer).Within maxParamLength ↔ value.dataLen < maxParamLength := by
  unfold copyChars
  rw [within_write _ _ _ _ (by simp)]
  simp only [List.length_singleton]
  constructor
  · exact fun both => both.2
  · intro short
    refine ⟨?_, short⟩
    -- an empty string writes its terminator only
    by_cases empty : value.data.take maxParamLength = []
    · rw [empty]
      intro i member
      simp only [Buffer.write, List.length_nil, List.range_zero, List.map_nil,
        List.append_nil] at member
      exact inside i member
    · rw [within_write _ _ _ _ empty]
      refine ⟨inside, ?_⟩
      simp only [List.length_take]
      omega

theorem copy_chars_holds (value : CharBuffer) (buffer : Buffer)
    (short : value.dataLen < maxParamLength) (clean : 0 ∉ value.data) :
    HoldsText (copyChars value buffer) value.data := by
  have length := data_length value
  have whole : value.data.take maxParamLength = value.data :=
    List.take_of_length_le (by omega)
  refine ⟨by omega, clean, ?_⟩
  -- the terminator lies behind the copied bytes and leaves them alone
  have before : (copyChars value buffer).read 0 value.dataLen = value.data := by
    unfold copyChars
    rw [whole, read_write_outside _ _ _ _ _ (Or.inl (by omega))]
    have back := read_write_same buffer 0 value.data
    rwa [length] at back
  have after : (copyChars value buffer).read (0 + value.dataLen) 1 = [0] := by
    unfold copyChars
    rw [Nat.zero_add]
    exact read_write_same _ value.dataLen [0]
  rw [length, read_add, before, after]

theorem char_represented_iff (value : CharBuffer) (buffer : Buffer)
    (inside : buffer.Within maxParamLength) :
    (HoldsText (copyChars value buffer) value.data ∧
        (copyChars value buffer).Within maxParamLength) ↔
      value.data.length < maxParamLength ∧ 0 ∉ value.data := by
  rw [copy_chars_within_iff value buffer inside, data_length]
  constructor
  · rintro ⟨held, short⟩
    exact ⟨short, held.clean⟩
  · rintro ⟨short, clean⟩
    exact ⟨copy_chars_holds value buffer short clean, short⟩

theorem printed_represented_iff (buffer : Buffer) (text : List UInt8)
    (inside : buffer.Within maxParamLength) :
    (HoldsText (snprintf buffer 0 maxParamLength text) text ∧
        (snprintf buffer 0 maxParamLength text).Within maxParamLength) ↔
      text.length < maxParamLength ∧ 0 ∉ text := by
  constructor
  · rintro ⟨held, _⟩
    exact ⟨held.room, held.clean⟩
  · rintro ⟨short, clean⟩
    exact ⟨snprintf_holds buffer text short clean, snprintf_within buffer text inside⟩

/-- A converted parameter is represented, inside its buffer, exactly when it is sendable. -/
theorem converted_represented_iff (format : FloatFormat) (param : Param)
    (inside : param.pvalue.Within maxParamLength) :
    (Represents format (convertParam format param).var
        (some (convertParam format param).pvalue) ∧
      (convertParam format param).pvalue.Within maxParamLength) ↔ Sendable format param.var := by
  unfold convertParam Sendable
  by_cases null : param.var.null = true
  · simp [null, Represents]
  · have notNull : param.var.null = false := by simpa using null
    rw [if_neg null]
    cases value : param.var.value with
    | char chars =>
        simpa [Represents, notNull, boundText, value] using
          char_represented_iff chars param.pvalue inside
    | varchar chars =>
        simpa [Represents, notNull, boundText, value] using
          char_represented_iff chars param.pvalue inside
    | _ =>
        simpa [Represents, notNull, boundText, value, dbPrintValue] using
          printed_represented_iff param.pvalue _ inside
end Representation

/-! Any sequence of updates and executions. -/
section Histories

theorem execute_sound_iff (format : FloatFormat) (stmt : PgStatement)
    (inside : ∀ param ∈ stmt.params, param.pvalue.Within maxParamLength) :
    ParamsSound format (pgsqlDrvExecute format stmt) ↔
      ∀ param ∈ stmt.params, Sendable format param.var := by
  constructor
  · intro sound param member
    have converted : convertParam format param ∈ (pgsqlDrvExecute format stmt).params :=
      List.mem_map.mpr ⟨param, member, rfl⟩
    exact (converted_represented_iff format param (inside param member)).mp
      ⟨sound.represented _ (List.mem_map.mpr ⟨_, converted, rfl⟩), sound.inside _ converted⟩
  · intro sendable
    have both : ∀ param ∈ (pgsqlDrvExecute format stmt).params,
        Represents format param.var (some param.pvalue) ∧ param.pvalue.Within maxParamLength := by
      intro param member
      obtain ⟨before, old, same⟩ := List.mem_map.mp member
      rw [← same]
      exact (converted_represented_iff format before (inside before old)).mpr
        (sendable before old)
    constructor
    · intro entry member
      obtain ⟨param, converted, same⟩ := List.mem_map.mp member
      rw [← same]
      exact (both param converted).1
    · exact fun param member => (both param member).2

theorem update_sound (format : FloatFormat) (stmt : PgStatement) (i : Nat) (var : DbBind)
    (sound : ParamsSound format stmt) : ParamsSound format (updateParam stmt i var) := by
  refine ⟨sound.represented, ?_⟩
  intro param member
  obtain ⟨k, bound, here⟩ := List.getElem_of_mem member
  simp only [updateParam, List.getElem_modify] at here
  have old := sound.inside _ (List.getElem_mem
    (by simpa [updateParam] using bound : k < stmt.params.length))
  split at here
  · rw [← here]
    exact old
  · rw [← here]
    exact old

theorem bound_sound (format : FloatFormat) (vars : List DbBind) (malloced : Nat → Nat → UInt8) :
    ParamsSound format (pgsqlDrvBindParam vars malloced) := by
  constructor
  · intro entry member
    exact absurd member List.not_mem_nil
  · intro param member
    obtain ⟨pair, _, same⟩ := List.mem_map.mp member
    rw [← same]
    exact allocated_within _ _

/-- Along any sequence of updates and executions the server is sent the bound
values, and nothing is written outside the buffers, exactly when at every
execution no parameter is NULL and every text is at most 255 bytes without a
terminator. -/
theorem params_sound_iff (format : FloatFormat) (vars : List DbBind)
    (malloced : Nat → Nat → UInt8) (schedule : List ParamAction) :
    Always (step format) (ParamsSound format) (pgsqlDrvBindParam vars malloced) schedule ↔
      Guarded (step format) (SendsSendable format) (pgsqlDrvBindParam vars malloced) schedule := by
  apply always_iff_guarded (fun stmt (sound : ParamsSound format stmt) => sound)
  · intro stmt action after sound sendable taken
    cases action with
    | update i var =>
        cases taken
        exact update_sound format stmt i var sound
    | execute =>
        cases taken
        exact (execute_sound_iff format stmt sound.inside).mpr sendable
  · intro stmt action after sound taken later
    cases action with
    | update i var => trivial
    | execute =>
        cases taken
        exact (execute_sound_iff format stmt sound.inside).mp later
  · exact bound_sound format vars malloced

def plainFormat : FloatFormat := ⟨fun _ => [48], by simp⟩

def boundInt (value : Int32) (isNull : Bool) : DbBind := ⟨.int value, some isNull⟩

/-- An INT is sent, then marked NULL and executed again: the old text goes out. -/
theorem null_sent_as_old_value :
    (run (step plainFormat) (pgsqlDrvBindParam [boundInt 7 false] fun _ _ => 0)
        [.execute, .update 0 (boundInt 7 true), .execute]).map (fun stmt =>
          stmt.sent.map fun entry => (entry.1.null, entry.2.map fun b => b.read 0 2)) =
      some [(true, some [55, 0])] ∧
    ¬ Always (step plainFormat) (ParamsSound plainFormat)
      (pgsqlDrvBindParam [boundInt 7 false] fun _ _ => 0)
      [.execute, .update 0 (boundInt 7 true), .execute] := by
  refine ⟨by decide +kernel, fun all => ?_⟩
  have last : ParamsSound plainFormat _ := ((all.2 _ rfl).2 _ rfl).2 _ rfl
  have sent := last.represented _ List.mem_cons_self
  exact absurd sent.1 (by decide)
end Histories
end PteSysbench.PreparedParams
