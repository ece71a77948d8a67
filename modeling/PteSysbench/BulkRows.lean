import PteSysbench.BulkInsert

/-!
What a bulk insert sends when nothing fails: the rows, each once and in order, in
groups behind the header. A row is either in an INSERT that was sent or in the
buffer, and the last flush leaves none of them there.
-/

namespace PteSysbench.BulkRows

open BulkInsert ByteBuffer

/-- A statement that the driver is given. -/
inductive Statement where
  | insert (rows : List CString)
  | commit

def joined (rows : List CString) : List UInt8 := [44].intercalate (rows.map CString.bytes)

namespace Statement

def text (header : CString) : Statement → List UInt8
  | .insert rows => header.bytes ++ joined rows
  | .commit => commitText

def rows : Statement → List CString
  | .insert rows => rows
  | .commit => []

end Statement

/-- The rows of all statements, in order. -/
def rowsOf (script : List Statement) : List CString := script.flatMap Statement.rows

def NoEmptyInsert (script : List Statement) : Prop := Statement.insert [] ∉ script

/-- Every INSERT is followed by a COMMIT. -/
def Committed (script : List Statement) : Prop :=
  ∀ before rows after, script = before ++ .insert rows :: after → .commit ∈ after

/-- The calls for the rows, one after another, with their return values. -/
def nextAll (con : Connection) : List BulkCall → Connection × List Int
  | [] => (con, [])
  | call :: rest =>
      let outcome := dbBulkInsertNext con call.replies call.row
      let later := nextAll outcome.1 rest
      (later.1, outcome.2 :: later.2)

/-- A query succeeds; what it leaves open can be freed before the next one. -/
structure Succeeds (replies : FlushReplies) : Prop where
  insert : replies.insert.error = .none
  commit : replies.commit.error = .none
  insertFree : replies.insertFree = 0
  commitFree : replies.commitFree = 0

/-- A row that fits behind the header, on a driver on which everything succeeds. -/
structure Accepted (header : CString) (call : BulkCall) : Prop where
  fits : header.strlen + call.row.strlen + 1 ≤ bulkPacketSize
  free : call.replies.freeRc = 0
  flush : Succeeds call.replies.flush

/-- Where the rows of a session are. -/
structure Holds (header : CString) (before : List (List UInt8)) (commitMax : Nat)
    (con : Connection) (script : List Statement) (buffered : List CString) : Prop where
  invariant : ∃ buffer, BulkInvariant con buffer ∧
    buffer.read 0 con.bulkPtr = header.bytes ++ joined buffered
  ptr : con.bulkPtr = header.strlen + (joined buffered).length
  values : con.bulkValues = header.strlen
  cnt : con.bulkCnt = buffered.length
  sent : con.sent = before ++ script.map (Statement.text header)
  commitMax : con.bulkCommitMax = commitMax
  noEmpty : NoEmptyInsert script

/-! The text in the buffer. -/
section Texts

theorem joined_snoc (rows : List CString) (row : CString) (some_ : rows ≠ []) :
    joined (rows ++ [row]) = joined rows ++ 44 :: row.bytes := by
  unfold joined
  induction rows with
  | nil => exact absurd rfl some_
  | cons first rest ih =>
      cases rest with
      | nil => simp
      | cons second rest =>
          have later := ih (by simp)
          simp only [List.cons_append, List.map_cons, List.intercalate_cons_cons] at later ⊢
          rw [later]
          simp

theorem read_write_extend (buffer : Buffer) (start : Nat) (data : List UInt8) :
    (buffer.write start data).read 0 (start + data.length) = buffer.read 0 start ++ data := by
  rw [read_add, Nat.zero_add, read_write_same,
    read_write_outside buffer start 0 start data (.inl (by omega))]

theorem read_strcpy (buffer : Buffer) (start : Nat) (s : CString) :
    (buffer.strcpy start s).read 0 (start + s.strlen) = buffer.read 0 start ++ s.bytes := by
  have copied := read_write_inside buffer start 0 s.strlen (s.bytes ++ [0])
    (by simp [CString.strlen])
  rw [Nat.add_zero, List.drop_zero, CString.strlen, List.take_left] at copied
  rw [read_add, Nat.zero_add, Buffer.strcpy, CString.strlen, copied,
    read_write_outside buffer start 0 start _ (.inl (by omega))]

end Texts

/-! One call. -/
section Calls
variable {header : CString} {before : List (List UInt8)} {commitMax : Nat} {con : Connection}
  {script : List Statement} {buffered : List CString}

theorem holds_ready (holds : Holds header before commitMax con script buffered) :
    Holds header before commitMax { con with state := .ready } script buffered := by
  obtain ⟨buffer, valid, contents⟩ := holds.invariant
  exact ⟨⟨buffer, ready_invariant con buffer valid, contents⟩, holds.ptr, holds.values, holds.cnt,
    holds.sent, holds.commitMax, holds.noEmpty⟩

/-- The row goes behind those in the buffer, with a comma if there are any. -/
theorem append_text (holds : Holds header before commitMax con script buffered)
    (buffer : Buffer) (contents : buffer.read 0 con.bulkPtr = header.bytes ++ joined buffered)
    (row : CString) (small : con.bulkPtr + row.strlen + comma con < 2 ^ 32) :
    ∃ copied, (appendRow con buffer row).bulkBuffer = some copied ∧
      copied.read 0 (appendRow con buffer row).bulkPtr =
        header.bytes ++ joined (buffered ++ [row]) ∧
      (appendRow con buffer row).bulkPtr =
        header.strlen + (joined (buffered ++ [row])).length := by
  have ptr := holds.ptr
  have cnt := holds.cnt
  have length : row.strlen = row.bytes.length := rfl
  have moved : (appendRow con buffer row).bulkPtr = con.bulkPtr + row.strlen + comma con :=
    Nat.mod_eq_of_lt small
  rw [moved]
  by_cases some_ : buffered = []
  · subst some_
    have none_ : ¬ 0 < con.bulkCnt := by simp [cnt]
    have empty : joined ([] : List CString) = [] := rfl
    have single : joined ([] ++ [row]) = row.bytes := List.intercalate_singleton
    refine ⟨buffer.strcpy con.bulkPtr row, by simp only [appendRow, none_, ↓reduceIte], ?_⟩
    simp only [comma, none_, ↓reduceIte, Nat.add_zero]
    rw [read_strcpy, contents, empty, List.append_nil, single]
    rw [empty, List.length_nil] at ptr
    exact ⟨rfl, by omega⟩
  · have more : 0 < con.bulkCnt := by
      rw [cnt]
      exact List.length_pos_iff.mpr some_
    have comma_ := read_write_extend buffer con.bulkPtr [44]
    rw [List.length_singleton] at comma_
    refine ⟨(buffer.write con.bulkPtr [44]).strcpy (con.bulkPtr + 1) row,
      by simp only [appendRow, more, ↓reduceIte], ?_⟩
    simp only [comma, more, ↓reduceIte]
    rw [Nat.add_right_comm, read_strcpy, comma_, contents, joined_snoc buffered row some_]
    refine ⟨by simp, ?_⟩
    rw [List.length_append, List.length_cons]
    omega

theorem append_holds (holds : Holds header before commitMax con script buffered)
    (buffer : Buffer) (allocated : con.bulkBuffer = some buffer) (row : CString)
    (room : con.bulkPtr + row.strlen + 1 + comma con ≤ con.bulkBuflen) :
    Holds header before commitMax (appendRow con buffer row) script (buffered ++ [row]) := by
  obtain ⟨other, valid, contents⟩ := holds.invariant
  obtain rfl : other = buffer := Option.some.inj (valid.allocated.symm.trans allocated)
  obtain ⟨copied, kept⟩ := append_keeps con other row valid room
  have packet : con.bulkBuflen = 512 * 1024 := valid.buflen
  have counted := valid.counted
  have inside := valid.room
  obtain ⟨stored, here, text, ptr⟩ := append_text holds other contents row (by omega)
  obtain rfl : stored = copied := Option.some.inj (here.symm.trans kept.allocated)
  have small : (con.bulkCnt + 1) % 2 ^ 32 = con.bulkCnt + 1 := Nat.mod_eq_of_lt (by omega)
  refine ⟨⟨stored, kept, text⟩, ptr, holds.values, ?_, holds.sent, holds.commitMax,
    holds.noEmpty⟩
  rw [appendRow, small, holds.cnt, List.length_append, List.length_singleton]

theorem db_query_sent (con : Connection) (reply : QueryReply) (query : List UInt8)
    (open_ : con.state ≠ .invalid) :
    (dbQuery con 0 reply query).1.sent = con.sent ++ [query] ∧
      (dbQuery con 0 reply query).1.bulkCommitMax = con.bulkCommitMax := by
  have free : ¬ (con.state = .resultSet ∧ (0 : Int) ≠ 0) := fun stuck => stuck.2 rfl
  rw [dbQuery, if_neg open_, if_neg free]
  by_cases shown : con.state = .resultSet
  · simp only [shown, ↓reduceIte, dbFreeResultsInt]
    repeat' split
    all_goals exact ⟨rfl, rfl⟩
  · simp only [shown, ↓reduceIte]
    repeat' split
    all_goals exact ⟨rfl, rfl⟩

/-- A flush sends the buffer, and a COMMIT if one is due. -/
theorem do_insert_sent (header : CString) (con : Connection) (isLast : Bool)
    (replies : FlushReplies) (ready : con.state = .ready) (rows : con.bulkCnt ≠ 0)
    (succeeds : Succeeds replies) :
    ∃ commits : List Statement, (∀ statement ∈ commits, statement = .commit) ∧
      (CommitDue con isLast → commits = [.commit]) ∧
      (dbBulkDoInsert con isLast replies).1.sent =
        con.sent ++ bulkText con :: commits.map (Statement.text header) ∧
      (dbBulkDoInsert con isLast replies).1.bulkCommitMax = con.bulkCommitMax := by
  have open_ : con.state ≠ .invalid := by simp [ready]
  have inserted := db_query_sent con replies.insert (bulkText con) open_
  obtain ⟨failed, stillOpen⟩ := db_query_fails_iff con 0 replies.insert (bulkText con) open_
  simp only [succeeds.insert, ne_eq, not_true_eq_false, and_false, or_false, iff_false] at failed
  rw [dbBulkDoInsert, if_neg rows, succeeds.insertFree]
  generalize dbQuery con 0 replies.insert (bulkText con) = answer at *
  simp only [queryFailed] at failed
  simp only [if_neg failed]
  by_cases noCommit : con.bulkCommitMax = 0
  · refine ⟨[], by simp, fun due => absurd noCommit due.1, ?_, ?_⟩ <;> simp [noCommit, inserted]
  · simp only [if_neg noCommit]
    by_cases due : isLast = true ∨ con.bulkCommitMax ≤ uncommitted con
    · have counted : ({ answer.1 with bulkCommitCnt := uncommitted con } : Connection).state ≠
          .invalid := stillOpen
      have committed := db_query_sent { answer.1 with bulkCommitCnt := uncommitted con }
        replies.commit commitText counted
      obtain ⟨lost, _⟩ := db_query_fails_iff { answer.1 with bulkCommitCnt := uncommitted con } 0
        replies.commit commitText counted
      simp only [succeeds.commit, ne_eq, not_true_eq_false, and_false, or_false, iff_false,
        queryFailed] at lost
      simp only [if_pos due, succeeds.commitFree, if_neg lost]
      refine ⟨[.commit], by simp, fun _ => rfl, ?_, committed.2.trans inserted.2⟩
      rw [committed.1]
      simp [inserted, Statement.text]
    · simp only [if_neg due]
      refine ⟨[], by simp, fun owed => absurd owed.2 due, ?_, inserted.2⟩
      simp [inserted]

theorem rows_inserted (script commits : List Statement) (rows : List CString)
    (only : ∀ statement ∈ commits, statement = .commit) :
    rowsOf (script ++ .insert rows :: commits) = rowsOf script ++ rows := by
  have quiet : commits.flatMap Statement.rows = [] := by
    apply List.flatMap_eq_nil_iff.mpr
    intro statement member
    rw [only statement member]
    rfl
  rw [rowsOf, List.flatMap_append, List.flatMap_cons, quiet, List.append_nil]
  rfl

/-- After a flush the rows are in the INSERT that was sent. -/
theorem flush_holds (holds : Holds header before commitMax con script buffered)
    (isLast : Bool) (replies : FlushReplies) (ready : con.state = .ready)
    (some_ : buffered ≠ []) (succeeds : Succeeds replies) :
    (dbBulkDoInsert con isLast replies).2 = 0 ∧
      ∃ commits : List Statement, (∀ statement ∈ commits, statement = .commit) ∧
        (CommitDue con isLast → commits = [.commit]) ∧
        Holds header before commitMax (dbBulkDoInsert con isLast replies).1
          (script ++ .insert buffered :: commits) [] := by
  obtain ⟨buffer, valid, contents⟩ := holds.invariant
  have rows : con.bulkCnt ≠ 0 := by
    rw [holds.cnt]
    exact List.length_pos_iff.mpr some_ |>.ne'
  have result := do_insert_result con isLast replies ready rows
  -- every way to fail is one of the replies
  have kept : ¬ FlushFails con isLast replies := by
    rintro (insert | ⟨_, ⟨_, stuck⟩ | commit⟩)
    · exact insert succeeds.insert
    · exact stuck succeeds.commitFree
    · exact commit succeeds.commit
  obtain ⟨done, ptr, cnt⟩ := result.flushed kept
  obtain ⟨commits, only, due, sent, most⟩ :=
    do_insert_sent header con isLast replies ready rows succeeds
  have invariant := flushed_invariant con buffer _ _ _ valid result
  have values := holds.values
  have empty : joined ([] : List CString) = [] := rfl
  refine ⟨done, commits, only, due, ⟨buffer, invariant, ?_⟩, ?_, ?_, cnt, ?_, ?_, ?_⟩
  · -- the header is still in front
    have whole := holds.ptr ▸ contents
    rw [read_add] at whole
    have sized : (buffer.read 0 header.strlen).length = header.bytes.length := by
      simp [Buffer.read, CString.strlen]
    rw [ptr, values, empty, List.append_nil]
    exact List.append_inj_left whole sized
  · rw [ptr, values, empty, List.length_nil, Nat.add_zero]
  · exact result.values.trans values
  · have text : bulkText con = header.bytes ++ joined buffered := by
      simp only [bulkText, valid.allocated, contents]
    rw [sent, holds.sent, text]
    simp [Statement.text]
  · exact most.trans holds.commitMax
  · intro member
    rcases List.mem_append.mp member with old | new
    · exact holds.noEmpty old
    · rcases List.mem_cons.mp new with same | later
      · exact some_ (Statement.insert.inj same).symm
      · cases only _ later

theorem db_query_freed (con : Connection) (reply : QueryReply) (query : List UInt8)
    (open_ : con.state ≠ .invalid) :
    dbQuery con 0 reply query = dbQuery { con with state := .ready } 0 reply query := by
  have stuck : ¬ (con.state = .resultSet ∧ (0 : Int) ≠ 0) := fun both => both.2 rfl
  rw [dbQuery, if_neg open_, if_neg stuck]
  simp only [freed_connection con open_]
  simp [dbQuery]

/-- A result set that is still open is freed by the flush itself. -/
theorem do_insert_freed (con : Connection) (isLast : Bool) (replies : FlushReplies)
    (open_ : con.state ≠ .invalid) (rows : con.bulkCnt ≠ 0) (free : replies.insertFree = 0) :
    dbBulkDoInsert con isLast replies =
      dbBulkDoInsert { con with state := .ready } isLast replies := by
  have query := db_query_freed con replies.insert (bulkText con) open_
  rw [dbBulkDoInsert, if_neg rows, free, query, dbBulkDoInsert, if_neg rows, free]
  rfl

/-- A row that fits is taken in, behind all rows before it. -/
theorem next_holds (holds : Holds header before commitMax con script buffered)
    (call : BulkCall) (accepted : Accepted header call) :
    (dbBulkInsertNext con call.replies call.row).2 = 0 ∧ ∃ later kept,
      Holds header before commitMax (dbBulkInsertNext con call.replies call.row).1 later kept ∧
        rowsOf later ++ kept = rowsOf script ++ buffered ++ [call.row] ∧ kept ≠ [] := by
  obtain ⟨buffer, valid, contents⟩ := holds.invariant
  have ready := holds_ready holds
  have values := holds.values
  have buflen := valid.buflen
  have fits := accepted.fits
  rcases next_cases con buffer call.replies call.row valid.open_ valid.allocated with
    ⟨stuck, _⟩ | ⟨_, full, first, _⟩ | ⟨_, _, rows, failed, _⟩ |
      ⟨_, _, rows, flushed, done⟩ | ⟨_, room, done⟩
  · exact absurd accepted.free stuck.2
  · -- an accepted row fits in a buffer with the header alone
    have empty := valid.empty first
    simp only [comma, first, Nat.lt_irrefl, ↓reduceIte] at full
    omega
  · have some_ : buffered ≠ [] := by
      rintro rfl
      exact rows holds.cnt
    exact absurd (flush_holds ready false call.replies.flush rfl some_ accepted.flush).1 failed
  · have some_ : buffered ≠ [] := by
      rintro rfl
      exact rows holds.cnt
    obtain ⟨_, commits, only, _, after⟩ :=
      flush_holds ready false call.replies.flush rfl some_ accepted.flush
    have result := do_insert_result { con with state := .ready } false call.replies.flush rfl rows
    rw [done]
    refine ⟨rfl, script ++ .insert buffered :: commits, [call.row], ?_, ?_, by simp⟩
    · refine append_holds after buffer (result.buffer.trans valid.allocated) call.row ?_
      have ptr := after.ptr
      have empty : (joined ([] : List CString)).length = 0 := rfl
      have none_ : comma (dbBulkDoInsert { con with state := .ready } false
          call.replies.flush).1 = 0 := by
        rw [comma, after.cnt]
        rfl
      have same : (dbBulkDoInsert { con with state := .ready } false
          call.replies.flush).1.bulkBuflen = bulkPacketSize := result.buflen.trans buflen
      omega
    · rw [rows_inserted script commits buffered only]
  · rw [done]
    refine ⟨rfl, script, buffered ++ [call.row], ?_, by simp, by simp⟩
    exact append_holds ready buffer valid.allocated call.row (Nat.not_lt.mp room)

theorem next_all_holds (calls : List BulkCall)
    (holds : Holds header before commitMax con script buffered)
    (accepted : ∀ call ∈ calls, Accepted header call) :
    (∀ rc ∈ (nextAll con calls).2, rc = 0) ∧ ∃ later kept,
      Holds header before commitMax (nextAll con calls).1 later kept ∧
        rowsOf later ++ kept = rowsOf script ++ buffered ++ calls.map BulkCall.row ∧
        (kept = [] → calls = [] ∧ later = script ∧ buffered = []) := by
  induction calls generalizing con script buffered with
  | nil =>
      exact ⟨by simp [nextAll], script, buffered, holds, by simp,
        fun none_ => ⟨rfl, rfl, none_⟩⟩
  | cons call rest ih =>
      obtain ⟨here, others⟩ := List.forall_mem_cons.mp accepted
      obtain ⟨done, later, kept, after, rows, some_⟩ := next_holds holds call here
      obtain ⟨allDone, last, left, ends, all, empty⟩ := ih after others
      refine ⟨?_, last, left, ends, ?_, fun none_ => absurd (empty none_).2.2 some_⟩
      · intro rc member
        rcases List.mem_cons.mp member with rfl | member
        · exact done
        · exact allDone rc member
      · rw [all, rows]
        simp

end Calls

/-! A whole bulk insert. -/
section Whole
variable {con started : Connection} {inputs : InitInputs} {query : CString}

theorem init_holds (open_ : con.state ≠ .invalid)
    (freed : con.state = .resultSet → inputs.freeRc = 0)
    (accepted : dbBulkInsertInit con inputs query = (started, 0)) :
    ∃ needsCommit, inputs.describe = some needsCommit ∧
      Holds query con.sent (if needsCommit then rowsBeforeCommit else 0) started [] [] := by
  obtain ⟨buffer, valid⟩ := init_invariant con started inputs query open_ freed accepted
  obtain ⟨needsCommit, contents, described, _, rfl⟩ := init_accepted open_ freed accepted
  have empty : joined ([] : List CString) = [] := rfl
  refine ⟨needsCommit, described, ⟨buffer, valid, ?_⟩, ?_, rfl, rfl, ?_, rfl, by
    simp [NoEmptyInsert]⟩
  · obtain rfl : (allocated contents).strcpy 0 query = buffer := Option.some.inj valid.allocated
    have text := read_strcpy (allocated contents) 0 query
    rw [Nat.zero_add] at text
    rw [text, empty]
    simp [Buffer.read]
  · rw [empty]
    rfl
  · simp

theorem committed_last (front : List Statement) : Committed (front ++ [.commit]) := by
  intro before rows after split
  have last := congrArg List.getLast? split
  cases after using List.reverseRecOn with
  | nil => simp at last
  | append_singleton middle statement =>
      rw [← List.cons_append, ← List.append_assoc, List.getLast?_concat, List.getLast?_concat]
        at last
      exact List.mem_append_right _ (List.mem_singleton.mpr (Option.some.inj last))

/-- The last flush leaves no row in the buffer and, where the driver needs it, no row
without a COMMIT behind it. -/
theorem done_holds {header : CString} {before : List (List UInt8)} {commitMax : Nat}
    {script : List Statement} {buffered : List CString}
    (holds : Holds header before commitMax con script buffered) (last : FlushReplies)
    (succeeds : Succeeds last) (none_ : buffered = [] → script = []) :
    (dbBulkInsertDone con last).2 = 0 ∧ ∃ all,
      (dbBulkInsertDone con last).1.sent = before ++ all.map (Statement.text header) ∧
      NoEmptyInsert all ∧ rowsOf all = rowsOf script ++ buffered ∧
      (commitMax ≠ 0 → Committed all) := by
  obtain ⟨buffer, valid, _⟩ := holds.invariant
  by_cases some_ : buffered = []
  · have empty : con.bulkCnt = 0 := by rw [holds.cnt, some_, List.length_nil]
    have nothing := none_ some_
    have done : dbBulkInsertDone con last = ({ con with bulkBuffer := none }, 0) := by
      simp [dbBulkInsertDone, dbBulkDoInsert, empty]
    rw [done]
    refine ⟨rfl, script, holds.sent, holds.noEmpty, by rw [some_, List.append_nil], fun _ => ?_⟩
    rw [nothing]
    intro front rows after split
    simp at split
  · have rows : con.bulkCnt ≠ 0 := by
      rw [holds.cnt]
      exact (List.length_pos_iff.mpr some_).ne'
    obtain ⟨done, commits, only, due, after⟩ :=
      flush_holds (holds_ready holds) true last rfl some_ succeeds
    rw [← do_insert_freed con true last valid.open_ rows succeeds.insertFree] at done after
    have result : dbBulkInsertDone con last =
        ({ (dbBulkDoInsert con true last).1 with bulkBuffer := none }, 0) := by
      rw [dbBulkInsertDone]
      simp [done]
    rw [result]
    refine ⟨rfl, _, after.sent, after.noEmpty, rows_inserted script commits buffered only,
      fun needed => ?_⟩
    have most : con.bulkCommitMax ≠ 0 := by rwa [holds.commitMax]
    have split : script ++ [.insert buffered, .commit] =
        (script ++ [.insert buffered]) ++ [.commit] := by simp
    rw [due ⟨most, .inl rfl⟩, split]
    exact committed_last _

/-- The bulk insert from its header to `db_bulk_insert_done`. -/
theorem bulk_insert_complete (con started : Connection) (inputs : InitInputs) (query : CString)
    (calls : List BulkCall) (last : FlushReplies)
    (open_ : con.state ≠ .invalid) (freed : con.state = .resultSet → inputs.freeRc = 0)
    (accepted : dbBulkInsertInit con inputs query = (started, 0))
    (rows : ∀ call ∈ calls, Accepted query call) (succeeds : Succeeds last) :
    (∀ before after, calls = before ++ after → ∃ script buffered,
      (nextAll started before).1.sent = con.sent ++ script.map (Statement.text query) ∧
      NoEmptyInsert script ∧ rowsOf script ++ buffered = before.map BulkCall.row ∧
      (nextAll started before).1.bulkCnt = buffered.length) ∧
    (∀ rc ∈ (nextAll started calls).2, rc = 0) ∧
    (dbBulkInsertDone (nextAll started calls).1 last).2 = 0 ∧
    ∃ script, (dbBulkInsertDone (nextAll started calls).1 last).1.sent =
        con.sent ++ script.map (Statement.text query) ∧
      NoEmptyInsert script ∧ rowsOf script = calls.map BulkCall.row ∧
      (inputs.describe = some true → Committed script) := by
  obtain ⟨needsCommit, described, holds⟩ := init_holds open_ freed accepted
  refine ⟨fun before after split => ?_, (next_all_holds calls holds rows).1, ?_⟩
  · have front : ∀ call ∈ before, Accepted query call := fun call member =>
      rows call (split ▸ List.mem_append_left after member)
    obtain ⟨_, script, buffered, held, all, _⟩ := next_all_holds before holds front
    exact ⟨script, buffered, held.sent, held.noEmpty, by simpa [rowsOf] using all, held.cnt⟩
  · obtain ⟨_, script, buffered, held, all, empty⟩ := next_all_holds calls holds rows
    obtain ⟨done, whole, sent, noEmpty, inOrder, committed⟩ :=
      done_holds held last succeeds fun none_ => (empty none_).2.1
    refine ⟨done, whole, sent, noEmpty, ?_, fun needed => committed ?_⟩
    · rw [inOrder, all]
      simp [rowsOf]
    · obtain rfl := Option.some.inj (described.symm.trans needed)
      decide

def twoRows : List BulkCall :=
  [⟨succeeding, letters 4 (by decide)⟩, ⟨succeeding, letters 5 (by decide)⟩]

theorem two_rows_complete :
    ∃ script, (dbBulkInsertDone (nextAll freshSession.con twoRows).1 succeeding.flush).1.sent =
        script.map (Statement.text BulkInsert.header) ∧
      NoEmptyInsert script ∧ rowsOf script = twoRows.map BulkCall.row ∧ Committed script := by
  have rows : ∀ call ∈ twoRows, Accepted BulkInsert.header call := by
    intro call member
    simp only [twoRows, List.mem_cons, List.not_mem_nil, or_false] at member
    rcases member with rfl | rfl
    · exact ⟨by rw [BulkInsert.header, letters_strlen, letters_strlen]; decide, rfl,
        ⟨rfl, rfl, rfl, rfl⟩⟩
    · exact ⟨by rw [BulkInsert.header, letters_strlen, letters_strlen]; decide, rfl,
        ⟨rfl, rfl, rfl, rfl⟩⟩
  obtain ⟨_, _, _, script, sent, noEmpty, inOrder, committed⟩ :=
    bulk_insert_complete freshConnection freshSession.con startInputs BulkInsert.header twoRows
      succeeding.flush (by decide) (by decide) rfl rows ⟨rfl, rfl, rfl, rfl⟩
  exact ⟨script, sent, noEmpty, inOrder, committed rfl⟩

end Whole
end PteSysbench.BulkRows
