import PteSysbench.ActionSystem
import PteSysbench.ByteBuffer
import PteSysbench.DbDriver

/-!
The multi-row INSERT of db_driver.c: `db_bulk_insert_init`,
`db_bulk_insert_next`, `db_bulk_do_insert` and `db_bulk_insert_done`. What the
driver answers (and what malloc returns) are inputs of each call.
-/

namespace PteSysbench.BulkInsert

open ActionSystem ByteBuffer DbDriver

def bulkPacketSize : Nat := 512 * 1024

def rowsBeforeCommit : Nat := 1000

/-- The fields of `db_conn_t` that bulk inserts use. `sent` lists the texts
given to the driver's query operation. -/
structure Connection where
  state : ConnState
  error : DbError
  counter : Counter
  bulkCnt : Nat
  bulkBuflen : Nat
  bulkBuffer : Option Buffer
  bulkPtr : Nat
  bulkValues : Nat
  bulkCommitCnt : Nat
  bulkCommitMax : Nat
  sent : List (List UInt8)

/-! Queries. -/
section Queries

/-- What `ops.query` returns and leaves in `rs->counter`. -/
structure QueryReply where
  error : DbError
  counter : Counter

/-- The result set is dropped whatever `ops.free_results` returns. -/
def dbFreeResultsInt (con : Connection) : Connection := { con with state := .ready }

/-- `freeRc` is what `ops.free_results` returns if it is called. The result says
whether `db_query` returns a result set. -/
def dbQuery (con : Connection) (freeRc : Int) (reply : QueryReply) (query : List UInt8) :
    Connection × Bool :=
  if con.state = .invalid then ({ con with error := .fatal }, false)
  else if con.state = .resultSet ∧ freeRc ≠ 0 then
    ({ dbFreeResultsInt con with error := .fatal }, false)
  else
    let freed := if con.state = .resultSet then dbFreeResultsInt con else con
    let sent := { freed with
      error := reply.error, counter := reply.counter, sent := freed.sent ++ [query] }
    if reply.error = .none then
      if reply.counter = .read then ({ sent with state := .resultSet }, true)
      else ({ sent with state := .ready }, false)
    else (sent, false)
end Queries

/-! The bulk insert functions. -/
section Functions

/-- The driver's replies to the two queries of a flush. -/
structure FlushReplies where
  insertFree : Int
  insert : QueryReply
  commitFree : Int
  commit : QueryReply

/-- `con->bulk_buffer` of length `con->bulk_ptr`. -/
def bulkText (con : Connection) : List UInt8 :=
  match con.bulkBuffer with
  | none => []
  | some buffer => buffer.read 0 con.bulkPtr

def commitText : List UInt8 := [67, 79, 77, 77, 73, 84]

/-- `con->bulk_commit_cnt + con->bulk_cnt` in `unsigned int`. -/
def uncommitted (con : Connection) : Nat := (con.bulkCommitCnt + con.bulkCnt) % 2 ^ 32

def dbBulkDoInsert (con : Connection) (isLast : Bool) (replies : FlushReplies) :
    Connection × Int :=
  if con.bulkCnt = 0 then (con, 0)
  else
    let (inserted, rows) := dbQuery con replies.insertFree replies.insert (bulkText con)
    if rows = false ∧ inserted.error ≠ .none then (inserted, 1)
    else if con.bulkCommitMax = 0 then
      ({ inserted with bulkPtr := con.bulkValues, bulkCnt := 0 }, 0)
    else
      let counted := { inserted with bulkCommitCnt := uncommitted con }
      if isLast = true ∨ con.bulkCommitMax ≤ uncommitted con then
        let (committed, answer) := dbQuery counted replies.commitFree replies.commit commitText
        if answer = false ∧ committed.error ≠ .none then (committed, 1)
        else ({ committed with
          bulkCommitCnt := 0, bulkPtr := con.bulkValues, bulkCnt := 0 }, 0)
      else ({ counted with bulkPtr := con.bulkValues, bulkCnt := 0 }, 0)

/-- `describe` is the `needs_commit` capability, `none` if `db_describe` fails;
`malloced` is the allocated memory, if any. -/
structure InitInputs where
  freeRc : Int
  describe : Option Bool
  malloced : Option (Nat → UInt8)

def dbBulkInsertInit (con : Connection) (inputs : InitInputs) (query : CString) :
    Connection × Int :=
  if con.state = .invalid then (con, 0)
  else
    let freed := if con.state = .resultSet then dbFreeResultsInt con else con
    if con.state = .resultSet ∧ inputs.freeRc ≠ 0 then (freed, 0)
    else
      match inputs.describe with
      | none => (freed, 1)
      | some needsCommit =>
          if bulkPacketSize < query.strlen + 1 then (freed, 1)
          else
            let sized := { freed with bulkBuflen := bulkPacketSize }
            match inputs.malloced with
            | none => ({ sized with bulkBuffer := none }, 1)
            | some contents =>
                ({ sized with
                  bulkCommitMax := if needsCommit then rowsBeforeCommit else 0
                  bulkCommitCnt := 0
                  bulkBuffer := some ((allocated contents).strcpy 0 query)
                  bulkPtr := query.strlen
                  bulkValues := query.strlen
                  bulkCnt := 0 }, 0)

/-- `freeRc` is for the call's own `db_free_results_int`. -/
structure NextReplies where
  freeRc : Int
  flush : FlushReplies

/-- 1 if the row is preceded by a comma. -/
def comma (con : Connection) : Nat := if 0 < con.bulkCnt then 1 else 0

/-- The copy at the end of `db_bulk_insert_next`. -/
def appendRow (con : Connection) (buffer : Buffer) (row : CString) : Connection :=
  { con with
    bulkBuffer := some (
      if 0 < con.bulkCnt then (buffer.write con.bulkPtr [44]).strcpy (con.bulkPtr + 1) row
      else buffer.strcpy con.bulkPtr row)
    bulkPtr := (con.bulkPtr + row.strlen + comma con) % 2 ^ 32
    bulkCnt := (con.bulkCnt + 1) % 2 ^ 32 }

def dbBulkInsertNext (con : Connection) (replies : NextReplies) (row : CString) :
    Connection × Int :=
  if con.state = .invalid then (con, 0)
  else
    let freed := if con.state = .resultSet then dbFreeResultsInt con else con
    if con.state = .resultSet ∧ replies.freeRc ≠ 0 then (freed, 0)
    else
      match freed.bulkBuffer with
      | none => (freed, 1)
      | some buffer =>
          if freed.bulkBuflen < freed.bulkPtr + row.strlen + 1 + comma freed then
            if freed.bulkCnt = 0 then (freed, 1)
            else
              -- The room is not checked again after the flush.
              let (flushed, rc) := dbBulkDoInsert freed false replies.flush
              if rc ≠ 0 then (flushed, 1) else (appendRow flushed buffer row, 0)
          else (appendRow freed buffer row, 0)

/-- A failed flush leaves the buffer allocated. -/
def dbBulkInsertDone (con : Connection) (replies : FlushReplies) : Connection × Int :=
  let (flushed, rc) := dbBulkDoInsert con true replies
  if rc ≠ 0 then (flushed, 1) else ({ flushed with bulkBuffer := none }, 0)
end Functions

/-! What one call does, by the replies it gets. -/
section Outcomes

/-- A flush whose COMMIT is made. -/
def CommitDue (con : Connection) (isLast : Bool) : Prop :=
  con.bulkCommitMax ≠ 0 ∧ (isLast = true ∨ con.bulkCommitMax ≤ uncommitted con)

/-- The INSERT fails, or the COMMIT does, or a result set the INSERT opened
cannot be freed before the COMMIT. -/
def FlushFails (con : Connection) (isLast : Bool) (replies : FlushReplies) : Prop :=
  replies.insert.error ≠ .none ∨
    CommitDue con isLast ∧
      (replies.insert.counter = .read ∧ replies.commitFree ≠ 0 ∨ replies.commit.error ≠ .none)

/-- The bulk fields that no query changes. -/
structure SameBulk (before after : Connection) : Prop where
  cnt : after.bulkCnt = before.bulkCnt
  buflen : after.bulkBuflen = before.bulkBuflen
  buffer : after.bulkBuffer = before.bulkBuffer
  ptr : after.bulkPtr = before.bulkPtr
  values : after.bulkValues = before.bulkValues

theorem db_query_frame (con : Connection) (freeRc : Int) (reply : QueryReply)
    (query : List UInt8) : SameBulk con (dbQuery con freeRc reply query).1 := by
  unfold dbQuery dbFreeResultsInt
  split
  · exact ⟨rfl, rfl, rfl, rfl, rfl⟩
  split
  · exact ⟨rfl, rfl, rfl, rfl, rfl⟩
  by_cases shown : con.state = .resultSet
  · simp only [shown, ↓reduceIte]
    repeat' split
    all_goals exact ⟨rfl, rfl, rfl, rfl, rfl⟩
  · simp only [shown, ↓reduceIte]
    repeat' split
    all_goals exact ⟨rfl, rfl, rfl, rfl, rfl⟩

/-- The test a flush makes on `db_query`. -/
def queryFailed (answer : Connection × Bool) : Prop := answer.2 = false ∧ answer.1.error ≠ .none

theorem db_query_fails_iff (con : Connection) (freeRc : Int) (reply : QueryReply)
    (query : List UInt8) (open_ : con.state ≠ .invalid) :
    (queryFailed (dbQuery con freeRc reply query) ↔
      con.state = .resultSet ∧ freeRc ≠ 0 ∨ reply.error ≠ .none) ∧
    (dbQuery con freeRc reply query).1.state ≠ .invalid := by
  unfold dbQuery queryFailed dbFreeResultsInt
  rw [if_neg open_]
  by_cases stuck : con.state = .resultSet ∧ freeRc ≠ 0
  · simp [stuck]
  · rw [if_neg stuck]
    by_cases failed : reply.error = .none
    · by_cases rows : reply.counter = .read
      · simp [failed, rows, stuck]
      · simp [failed, rows, stuck]
    · by_cases shown : con.state = .resultSet
      · simp [failed, shown]
      · simp [failed, shown, open_]

theorem insert_state_read_iff (con : Connection) (freeRc : Int) (reply : QueryReply)
    (query : List UInt8) (ready : con.state = .ready) :
    reply.error = .none →
      ((dbQuery con freeRc reply query).1.state = .resultSet ↔ reply.counter = .read) := by
  intro succeeded
  by_cases rows : reply.counter = .read
  · simp [dbQuery, ready, succeeded, rows]
  · simp [dbQuery, ready, succeeded, rows]

/-- A flush of a non-empty buffer: failing leaves the rows where they are,
succeeding rewinds to the header. -/
structure FlushResult (con : Connection) (fails : Prop) (after : Connection) (rc : Int) : Prop where
  open_ : after.state ≠ .invalid
  buflen : after.bulkBuflen = con.bulkBuflen
  buffer : after.bulkBuffer = con.bulkBuffer
  values : after.bulkValues = con.bulkValues
  failed : fails → rc = 1 ∧ after.bulkPtr = con.bulkPtr ∧ after.bulkCnt = con.bulkCnt
  flushed : ¬ fails → rc = 0 ∧ after.bulkPtr = con.bulkValues ∧ after.bulkCnt = 0

theorem SameBulk.trans {before middle after : Connection} (first : SameBulk before middle)
    (second : SameBulk middle after) : SameBulk before after :=
  ⟨second.cnt.trans first.cnt, second.buflen.trans first.buflen, second.buffer.trans first.buffer,
    second.ptr.trans first.ptr, second.values.trans first.values⟩

theorem failed_result (con after : Connection) (fails : Prop) (open_ : after.state ≠ .invalid)
    (same : SameBulk con after) (lost : fails) : FlushResult con fails after 1 :=
  ⟨open_, same.buflen, same.buffer, same.values, fun _ => ⟨rfl, same.ptr, same.cnt⟩,
    fun kept => absurd lost kept⟩

theorem rewound_result (con after : Connection) (fails : Prop) (commitCnt : Nat)
    (open_ : after.state ≠ .invalid) (same : SameBulk con after) (kept : ¬ fails) :
    FlushResult con fails
      { after with bulkCommitCnt := commitCnt, bulkPtr := con.bulkValues, bulkCnt := 0 } 0 :=
  ⟨open_, same.buflen, same.buffer, same.values, fun lost => absurd lost kept,
    fun _ => ⟨rfl, rfl, rfl⟩⟩

/-- The COMMIT of a flush, behind an INSERT that succeeded. -/
theorem commit_result (con inserted : Connection) (replies : FlushReplies) (fails : Prop)
    (open_ : inserted.state ≠ .invalid) (same : SameBulk con inserted)
    (lostIff : fails ↔
      inserted.state = .resultSet ∧ replies.commitFree ≠ 0 ∨ replies.commit.error ≠ .none) :
    let answer := dbQuery inserted replies.commitFree replies.commit commitText
    let outcome : Connection × Int :=
      if answer.2 = false ∧ answer.1.error ≠ .none then (answer.1, 1)
      else ({ answer.1 with bulkCommitCnt := 0, bulkPtr := con.bulkValues, bulkCnt := 0 }, 0)
    FlushResult con fails outcome.1 outcome.2 := by
  intro answer outcome
  obtain ⟨failIff, stillOpen⟩ := db_query_fails_iff inserted replies.commitFree replies.commit
    commitText open_
  have frame : SameBulk con answer.1 := same.trans (db_query_frame inserted _ _ _)
  by_cases failed : queryFailed answer
  · have lost : outcome = (answer.1, 1) := if_pos failed
    rw [lost]
    exact failed_result con _ fails stillOpen frame (lostIff.mpr (failIff.mp failed))
  · have kept : outcome = ({ answer.1 with
        bulkCommitCnt := 0, bulkPtr := con.bulkValues, bulkCnt := 0 }, 0) := if_neg failed
    rw [kept]
    exact rewound_result con _ fails 0 stillOpen frame
      fun lost => failed (failIff.mpr (lostIff.mp lost))

theorem do_insert_result (con : Connection) (isLast : Bool) (replies : FlushReplies)
    (ready : con.state = .ready) (rows : con.bulkCnt ≠ 0) :
    FlushResult con (FlushFails con isLast replies) (dbBulkDoInsert con isLast replies).1
      (dbBulkDoInsert con isLast replies).2 := by
  rw [dbBulkDoInsert, if_neg rows]
  have frame := db_query_frame con replies.insertFree replies.insert (bulkText con)
  obtain ⟨failIff, open_⟩ := db_query_fails_iff con replies.insertFree replies.insert
    (bulkText con) (by simp [ready])
  have shown := insert_state_read_iff con replies.insertFree replies.insert (bulkText con) ready
  generalize dbQuery con replies.insertFree replies.insert (bulkText con) = answer at *
  simp only [ready, reduceCtorEq, false_and, false_or] at failIff
  by_cases failed : queryFailed answer
  · have lost : FlushFails con isLast replies := Or.inl (failIff.mp failed)
    simp only [queryFailed] at failed
    simp only [failed, ne_eq, not_false_eq_true, and_self, ↓reduceIte]
    exact failed_result con _ _ open_ frame lost
  · have succeeded : replies.insert.error = .none :=
      not_not.mp fun error => failed (failIff.mpr error)
    -- from here on only a COMMIT can fail
    have commitOnly : FlushFails con isLast replies ↔ CommitDue con isLast ∧
        (replies.insert.counter = .read ∧ replies.commitFree ≠ 0 ∨
          replies.commit.error ≠ .none) := by simp [FlushFails, succeeded]
    simp only [queryFailed] at failed
    simp only [if_neg failed]
    by_cases noCommit : con.bulkCommitMax = 0
    · have kept : ¬ FlushFails con isLast replies := fun lost =>
        (commitOnly.mp lost).1.1 noCommit
      simp only [if_pos noCommit]
      exact rewound_result con _ _ answer.1.bulkCommitCnt open_ frame kept
    · simp only [if_neg noCommit]
      by_cases due : isLast = true ∨ con.bulkCommitMax ≤ uncommitted con
      · simp only [if_pos due]
        apply commit_result con { answer.1 with bulkCommitCnt := uncommitted con } replies _ open_
          ⟨frame.cnt, frame.buflen, frame.buffer, frame.ptr, frame.values⟩
        rw [commitOnly, shown succeeded]
        exact ⟨fun lost => lost.2, fun lost => ⟨⟨noCommit, due⟩, lost⟩⟩
      · have kept : ¬ FlushFails con isLast replies := fun lost =>
          due (commitOnly.mp lost).1.2
        simp only [if_neg due]
        exact rewound_result con _ _ (uncommitted con) open_ frame kept

/-- A flush on any open connection, whatever fails of it. -/
theorem do_insert_open (con : Connection) (isLast : Bool) (replies : FlushReplies)
    (open_ : con.state ≠ .invalid) (rows : con.bulkCnt ≠ 0) :
    ∃ fails, FlushResult con fails (dbBulkDoInsert con isLast replies).1
      (dbBulkDoInsert con isLast replies).2 := by
  rw [dbBulkDoInsert, if_neg rows]
  have frame := db_query_frame con replies.insertFree replies.insert (bulkText con)
  obtain ⟨_, stillOpen⟩ := db_query_fails_iff con replies.insertFree replies.insert
    (bulkText con) open_
  generalize dbQuery con replies.insertFree replies.insert (bulkText con) = answer at *
  by_cases failed : queryFailed answer
  · simp only [queryFailed] at failed
    simp only [if_pos failed]
    exact ⟨True, failed_result con _ _ stillOpen frame trivial⟩
  · simp only [queryFailed] at failed
    simp only [if_neg failed]
    by_cases noCommit : con.bulkCommitMax = 0
    · simp only [if_pos noCommit]
      exact ⟨False, rewound_result con _ _ answer.1.bulkCommitCnt stillOpen frame id⟩
    · simp only [if_neg noCommit]
      by_cases due : isLast = true ∨ con.bulkCommitMax ≤ uncommitted con
      · simp only [if_pos due]
        exact ⟨_, commit_result con { answer.1 with bulkCommitCnt := uncommitted con } replies _
          stillOpen ⟨frame.cnt, frame.buflen, frame.buffer, frame.ptr, frame.values⟩ Iff.rfl⟩
      · simp only [if_neg due]
        exact ⟨False, rewound_result con _ _ (uncommitted con) stillOpen frame id⟩

/-- A flush that returned 0 left the header and dropped the rows. -/
theorem flush_succeeded (con : Connection) (replies : FlushReplies) (ready : con.state = .ready)
    (rows : con.bulkCnt ≠ 0) (flushed : (dbBulkDoInsert con false replies).2 = 0) :
    ¬ FlushFails con false replies ∧ (dbBulkDoInsert con false replies).1.bulkPtr = con.bulkValues ∧
      (dbBulkDoInsert con false replies).1.bulkCnt = 0 := by
  have result := do_insert_result con false replies ready rows
  have kept : ¬ FlushFails con false replies := by
    intro lost
    rw [(result.failed lost).1] at flushed
    exact absurd flushed (by decide)
  exact ⟨kept, (result.flushed kept).2⟩
end Outcomes

/-! The life of a connection: queries, and sessions of an accepted `db_bulk_insert_init`
and any number of rows, until `db_bulk_insert_done` ends them. -/
section Sessions

structure BulkCall where
  replies : NextReplies
  row : CString

inductive Call where
  | query (freeRc : Int) (reply : QueryReply) (text : List UInt8)
  | init (inputs : InitInputs) (query : CString)
  | next (call : BulkCall)
  | done (replies : FlushReplies)

/-- The connection, whether a session is on, and the row and return value if the last call
was for a row. -/
structure Session where
  con : Connection
  begun : Bool
  last : Option (CString × Int)

/-- Rows come in sessions only. -/
def step (session : Session) : Call → Option Session
  | .query freeRc reply text =>
      some { session with con := (dbQuery session.con freeRc reply text).1, last := none }
  | .init inputs query =>
      let outcome := dbBulkInsertInit session.con inputs query
      some { con := outcome.1, begun := outcome.2 == 0, last := none }
  | .next call =>
      let outcome := dbBulkInsertNext session.con call.replies call.row
      if session.begun then
        some { session with con := outcome.1, last := some (call.row, outcome.2) }
      else none
  | .done replies =>
      let outcome := dbBulkInsertDone session.con replies
      if session.begun then some { con := outcome.1, begun := outcome.2 != 0, last := none }
      else none

/-- The row does not fit even behind the header alone. -/
def Oversize (con : Connection) (row : CString) : Prop :=
  con.bulkBuflen < con.bulkValues + row.strlen + 1

structure BulkSafe (session : Session) : Prop where
  inside : ∀ buffer, session.con.bulkBuffer = some buffer →
    buffer.Within session.con.bulkBuflen
  room : session.begun = true → session.con.bulkPtr + 1 ≤ session.con.bulkBuflen
  rejected : ∀ row rc, session.last = some (row, rc) → Oversize session.con row → rc ≠ 0

/-- An oversize row meets no buffer, a buffer without rows, or a flush that fails, and a
connection whose result set, if one is open, can be freed. -/
def RowHandled (con : Connection) (call : BulkCall) : Prop :=
  Oversize con call.row →
    (con.state = .resultSet → call.replies.freeRc = 0) ∧
      (con.bulkBuffer = none ∨ con.bulkCnt = 0 ∨
        FlushFails { con with state := .ready } false call.replies.flush)

/-- A session that starts without its buffer, as an open result set cannot be freed, is
not the first one that got as far as the allocation. -/
def Handled (session : Session) : Call → Prop
  | .init inputs _ => session.con.state = .resultSet → inputs.freeRc ≠ 0 →
      session.con.bulkBuflen ≠ 0
  | .next call => RowHandled session.con call
  | .query _ _ _ | .done _ => True

/-- What holds between calls as long as every row was handled. -/
structure BulkInvariant (con : Connection) (buffer : Buffer) : Prop where
  open_ : con.state ≠ .invalid
  allocated : con.bulkBuffer = some buffer
  inside : buffer.Within con.bulkBuflen
  buflen : con.bulkBuflen = bulkPacketSize
  header : con.bulkValues ≤ con.bulkPtr
  room : con.bulkPtr + 1 ≤ con.bulkBuflen
  empty : con.bulkCnt = 0 → con.bulkPtr = con.bulkValues
  counted : con.bulkCnt + con.bulkValues ≤ con.bulkPtr + 1

theorem freed_connection (con : Connection) (open_ : con.state ≠ .invalid) :
    (if con.state = .resultSet then dbFreeResultsInt con else con) =
      { con with state := .ready } := by
  cases con with
  | mk state _ _ _ _ _ _ _ _ _ _ =>
      cases state with
      | ready => rfl
      | resultSet => rfl
      | invalid => exact absurd rfl open_

theorem next_cases (con : Connection) (buffer : Buffer) (replies : NextReplies) (row : CString)
    (open_ : con.state ≠ .invalid) (has : con.bulkBuffer = some buffer) :
    let freed : Connection := { con with state := .ready }
    let flush := dbBulkDoInsert freed false replies.flush
    let full := con.bulkBuflen < con.bulkPtr + row.strlen + 1 + comma con
    let stuck := con.state = .resultSet ∧ replies.freeRc ≠ 0
    (stuck ∧ dbBulkInsertNext con replies row = (freed, 0)) ∨
    (¬ stuck ∧ full ∧ con.bulkCnt = 0 ∧ dbBulkInsertNext con replies row = (freed, 1)) ∨
    (¬ stuck ∧ full ∧ con.bulkCnt ≠ 0 ∧ flush.2 ≠ 0 ∧
      dbBulkInsertNext con replies row = (flush.1, 1)) ∨
    (¬ stuck ∧ full ∧ con.bulkCnt ≠ 0 ∧ flush.2 = 0 ∧
      dbBulkInsertNext con replies row = (appendRow flush.1 buffer row, 0)) ∨
    (¬ stuck ∧ ¬ full ∧ dbBulkInsertNext con replies row = (appendRow freed buffer row, 0)) := by
  intro freed flush full stuck
  have outcome : dbBulkInsertNext con replies row =
      if stuck then (freed, 0)
      else if full then
        if con.bulkCnt = 0 then (freed, 1)
        else if flush.2 ≠ 0 then (flush.1, 1) else (appendRow flush.1 buffer row, 0)
      else (appendRow freed buffer row, 0) := by
    unfold dbBulkInsertNext
    rw [if_neg open_]
    simp only [freed_connection con open_]
    change (if stuck then (freed, (0 : Int)) else
      match con.bulkBuffer with
      | none => (freed, 1)
      | some buffer =>
          if full then
            if con.bulkCnt = 0 then (freed, 1)
            else if flush.2 ≠ 0 then (flush.1, 1) else (appendRow flush.1 buffer row, 0)
          else (appendRow freed buffer row, 0)) = _
    rw [has]
  rw [outcome]
  by_cases stopped : stuck
  · exact Or.inl ⟨stopped, if_pos stopped⟩
  · rw [if_neg stopped]
    by_cases noRoom : full
    · rw [if_pos noRoom]
      by_cases first : con.bulkCnt = 0
      · exact Or.inr (Or.inl ⟨stopped, noRoom, first, if_pos first⟩)
      · rw [if_neg first]
        by_cases failed : flush.2 ≠ 0
        · exact Or.inr (Or.inr (Or.inl ⟨stopped, noRoom, first, failed, if_pos failed⟩))
        · exact Or.inr (Or.inr (Or.inr (Or.inl
            ⟨stopped, noRoom, first, not_not.mp failed, if_neg failed⟩)))
    · exact Or.inr (Or.inr (Or.inr (Or.inr ⟨stopped, noRoom, if_neg noRoom⟩)))

/-- Copying a row that fits behind the rows before it. -/
theorem append_keeps (con : Connection) (buffer : Buffer) (row : CString)
    (valid : BulkInvariant con buffer) (room : con.bulkPtr + row.strlen + 1 + comma con ≤
      con.bulkBuflen) :
    ∃ copied, BulkInvariant (appendRow con buffer row) copied := by
  have packet : con.bulkBuflen = 512 * 1024 := valid.buflen
  have header := valid.header
  have counted := valid.counted
  have inside := valid.inside
  refine ⟨_, valid.open_, rfl, ?_, valid.buflen, ?_, ?_, ?_, ?_⟩
  all_goals
    by_cases some_ : 0 < con.bulkCnt
    <;> simp only [comma, some_, ↓reduceIte] at room
    <;> simp only [appendRow, comma, some_, ↓reduceIte]
  · rw [within_strcpy, within_write _ _ _ _ (by simp)]
    simp only [List.length_singleton]
    exact ⟨⟨inside, by omega⟩, by omega⟩
  · rw [within_strcpy]
    exact ⟨inside, by omega⟩
  all_goals omega

theorem not_within_of_oversize (con : Connection) (buffer : Buffer) (row : CString)
    (oversize : Oversize con row) (first : con.bulkCnt = 0) (rewound : con.bulkPtr = con.bulkValues)
    (copied : Buffer) (here : (appendRow con buffer row).bulkBuffer = some copied) :
    ¬ copied.Within con.bulkBuflen := by
  intro inside
  have empty : ¬ 0 < con.bulkCnt := by omega
  simp only [appendRow, empty, ↓reduceIte, Option.some.injEq] at here
  rw [← here, within_strcpy, rewound] at inside
  unfold Oversize at oversize
  omega

theorem flushed_invariant (con : Connection) (buffer : Buffer) (fails : Prop)
    (after : Connection) (rc : Int) (valid : BulkInvariant con buffer)
    (result : FlushResult con fails after rc) : BulkInvariant after buffer := by
  have header := valid.header
  have room := valid.room
  have counted := valid.counted
  have empty := valid.empty
  have same : after.bulkBuflen = con.bulkBuflen := result.buflen
  have values : after.bulkValues = con.bulkValues := result.values
  by_cases lost : fails
  · obtain ⟨_, ptr, cnt⟩ := result.failed lost
    exact ⟨result.open_, result.buffer.trans valid.allocated, same ▸ valid.inside,
      same.trans valid.buflen, by omega, by omega, by omega, by omega⟩
  · obtain ⟨_, ptr, cnt⟩ := result.flushed lost
    exact ⟨result.open_, result.buffer.trans valid.allocated, same ▸ valid.inside,
      same.trans valid.buflen, by omega, by omega, by omega, by omega⟩

theorem ready_invariant (con : Connection) (buffer : Buffer) (valid : BulkInvariant con buffer) :
    BulkInvariant { con with state := .ready } buffer :=
  ⟨by simp, valid.allocated, valid.inside, valid.buflen, valid.header, valid.room, valid.empty,
    valid.counted⟩

/-- A flush moves neither the header nor the end of the buffer, and copying a row
does not either. -/
theorem oversize_flushed {con after : Connection} {fails : Prop} {rc : Int} (buffer : Buffer)
    (row : CString) (result : FlushResult con fails after rc) :
    Oversize (appendRow after buffer row) row ↔ Oversize con row := by
  simp only [Oversize, appendRow, result.buflen, result.values]

theorem copied_behind_header (con : Connection) (buffer : Buffer) (row : CString)
    (valid : BulkInvariant con buffer) (first : con.bulkCnt = 0) (fits : ¬ Oversize con row) :
    ∃ copied, BulkInvariant (appendRow con buffer row) copied := by
  have rewound := valid.empty first
  refine append_keeps con buffer row valid ?_
  simp only [Oversize, comma, first, Nat.lt_irrefl, ↓reduceIte] at fits ⊢
  omega

/-- A connection without a buffer, before the first session or behind one. -/
structure Closed (con : Connection) : Prop where
  open_ : con.state ≠ .invalid
  empty : con.bulkBuffer = none
  buflen : con.bulkBuflen = 0 ∨ con.bulkBuflen = bulkPacketSize
  header : con.bulkValues ≤ con.bulkPtr
  room : con.bulkPtr + 1 ≤ bulkPacketSize

/-- What calls that handle every row keep of a connection. -/
def Sound (con : Connection) : Prop := Closed con ∨ ∃ buffer, BulkInvariant con buffer

structure SessionInvariant (session : Session) : Prop where
  sound : Sound session.con
  begun : session.begun = true → session.con.bulkBuflen = bulkPacketSize
  rejected : ∀ row rc, session.last = some (row, rc) → Oversize session.con row → rc ≠ 0

theorem sound_open {con : Connection} (sound : Sound con) : con.state ≠ .invalid := by
  rcases sound with closed | ⟨buffer, valid⟩
  · exact closed.open_
  · exact valid.open_

theorem sound_buflen {con : Connection} (sound : Sound con) :
    con.bulkBuflen = 0 ∨ con.bulkBuflen = bulkPacketSize := by
  rcases sound with closed | ⟨buffer, valid⟩
  · exact closed.buflen
  · exact Or.inr valid.buflen

theorem sound_ptr {con : Connection} (sound : Sound con) :
    con.bulkValues ≤ con.bulkPtr ∧ con.bulkPtr + 1 ≤ bulkPacketSize := by
  rcases sound with closed | ⟨buffer, valid⟩
  · exact ⟨closed.header, closed.room⟩
  · exact ⟨valid.header, valid.buflen ▸ valid.room⟩

/-- The state of an open connection does not matter. -/
theorem sound_frame {con after : Connection} (sound : Sound con) (same : SameBulk con after)
    (open_ : after.state ≠ .invalid) : Sound after := by
  rcases sound with ⟨_, empty, buflen, header, room⟩ |
    ⟨buffer, _, allocated, inside, buflen, header, room, first, counted⟩
  · left
    exact ⟨open_, same.buffer.trans empty, by rw [same.buflen]; exact buflen,
      by rw [same.values, same.ptr]; exact header, by rw [same.ptr]; exact room⟩
  · right
    refine ⟨buffer, open_, same.buffer.trans allocated, same.buflen ▸ inside,
      same.buflen.trans buflen, ?_, ?_, ?_, ?_⟩
    · rw [same.values, same.ptr]
      exact header
    · rw [same.ptr, same.buflen]
      exact room
    · rw [same.cnt, same.ptr, same.values]
      exact first
    · rw [same.cnt, same.values, same.ptr]
      exact counted

theorem sound_ready {con : Connection} (sound : Sound con) : Sound { con with state := .ready } :=
  sound_frame sound ⟨rfl, rfl, rfl, rfl, rfl⟩ (by simp)

theorem flushed_sound {con after : Connection} {fails : Prop} {rc : Int} (sound : Sound con)
    (result : FlushResult con fails after rc) : Sound after := by
  rcases sound with closed | ⟨buffer, valid⟩
  · have header := closed.header
    have room := closed.room
    have values : after.bulkValues = con.bulkValues := result.values
    left
    by_cases lost : fails
    · obtain ⟨_, ptr, _⟩ := result.failed lost
      exact ⟨result.open_, result.buffer.trans closed.empty, result.buflen ▸ closed.buflen,
        by omega, by omega⟩
    · obtain ⟨_, ptr, _⟩ := result.flushed lost
      exact ⟨result.open_, result.buffer.trans closed.empty, result.buflen ▸ closed.buflen,
        by omega, by omega⟩
  · exact Or.inr ⟨buffer, flushed_invariant con buffer fails after rc valid result⟩

theorem session_safe (session : Session) (valid : SessionInvariant session) :
    BulkSafe session := by
  refine ⟨fun other here => ?_, fun begun => ?_, valid.rejected⟩
  · rcases valid.sound with closed | ⟨buffer, invariant⟩
    · cases here.symm.trans closed.empty
    · cases (here.symm.trans invariant.allocated : some other = some buffer)
      exact invariant.inside
  · rw [valid.begun begun]
    exact (sound_ptr valid.sound).2

/-- Without a buffer every row is refused, unless the call does not get that far. -/
theorem closed_next (con : Connection) (call : BulkCall) (closed : Closed con) :
    dbBulkInsertNext con call.replies call.row = ({ con with state := .ready },
      if con.state = .resultSet ∧ call.replies.freeRc ≠ 0 then 0 else 1) := by
  unfold dbBulkInsertNext
  rw [if_neg closed.open_]
  simp only [freed_connection con closed.open_, closed.empty]
  split <;> rfl

/-- A handled row is copied where it fits, or refused. -/
theorem handled_row_keeps (con : Connection) (buffer : Buffer) (call : BulkCall)
    (invariant : BulkInvariant con buffer) (handled : RowHandled con call) :
    (∃ copied, BulkInvariant (dbBulkInsertNext con call.replies call.row).1 copied) ∧
      (Oversize (dbBulkInsertNext con call.replies call.row).1 call.row →
        (dbBulkInsertNext con call.replies call.row).2 ≠ 0) := by
  have ready := ready_invariant con buffer invariant
  have allocated : con.bulkBuffer ≠ none := by
    rw [invariant.allocated]
    exact Option.some_ne_none buffer
  rcases next_cases con buffer call.replies call.row invariant.open_ invariant.allocated with
    ⟨stuck, done⟩ | ⟨free, full, first, done⟩ | ⟨free, full, rows, failed, done⟩ |
      ⟨free, full, rows, flushed, done⟩ | ⟨free, room, done⟩
  -- a result set that stays open: the call returns 0 and the row is dropped
  · rw [done]
    exact ⟨⟨buffer, ready⟩, fun oversize => absurd ((handled oversize).1 stuck.1) stuck.2⟩
  -- no row to flush: the row is refused
  · rw [done]
    exact ⟨⟨buffer, ready⟩, fun _ => Int.one_ne_zero⟩
  · have result := do_insert_result { con with state := .ready } false call.replies.flush rfl rows
    rw [done]
    exact ⟨⟨buffer, flushed_invariant _ buffer _ _ _ ready result⟩, fun _ => Int.one_ne_zero⟩
  · have result := do_insert_result { con with state := .ready } false call.replies.flush rfl rows
    obtain ⟨kept, ptr, cnt⟩ := flush_succeeded { con with state := .ready }
      call.replies.flush rfl rows flushed
    generalize dbBulkDoInsert _ false call.replies.flush = flush at done result ptr cnt
    have behind := oversize_flushed buffer call.row result
    -- flushed: what is copied behind the header fits there, or it was refused
    have fits : ¬ Oversize con call.row := by
      intro oversize
      rcases (handled oversize).2 with missing | none_ | lost
      · exact allocated missing
      · exact rows none_
      · exact kept lost
    rw [done]
    constructor
    · exact copied_behind_header flush.1 buffer call.row
        (flushed_invariant _ buffer _ _ _ ready result) cnt fun oversize =>
          fits (behind.mp oversize)
    · exact fun oversize => absurd (behind.mp oversize) fits
  · rw [done]
    -- room behind the rows is room behind the header
    have fits : ¬ Oversize con call.row := by
      have header := invariant.header
      unfold Oversize
      omega
    refine ⟨append_keeps _ buffer call.row ready (by
      change con.bulkPtr + call.row.strlen + 1 + comma con ≤ _
      exact Nat.not_lt.mp room), fun oversize => absurd oversize fits⟩

/-- An unhandled row is copied past the end, or dropped with a zero return. -/
theorem unhandled_row_breaks (con : Connection) (buffer : Buffer) (call : BulkCall)
    (invariant : BulkInvariant con buffer)
    (inside : ∀ copied, (dbBulkInsertNext con call.replies call.row).1.bulkBuffer = some copied →
      copied.Within (dbBulkInsertNext con call.replies call.row).1.bulkBuflen)
    (rejected : Oversize (dbBulkInsertNext con call.replies call.row).1 call.row →
      (dbBulkInsertNext con call.replies call.row).2 ≠ 0) : RowHandled con call := by
  have header := invariant.header
  intro oversize
  have tooLong := oversize
  unfold Oversize at tooLong
  rcases next_cases con buffer call.replies call.row invariant.open_ invariant.allocated with
    ⟨stuck, done⟩ | ⟨free, full, first, done⟩ | ⟨free, full, rows, failed, done⟩ |
      ⟨free, full, rows, flushed, done⟩ | ⟨free, room, done⟩
  · rw [done] at rejected
    exact absurd rfl (rejected oversize)
  · exact ⟨fun shown => not_not.mp fun kept => free ⟨shown, kept⟩, Or.inr (Or.inl first)⟩
  · have result := do_insert_result { con with state := .ready } false call.replies.flush rfl rows
    refine ⟨fun shown => not_not.mp fun kept => free ⟨shown, kept⟩, Or.inr (Or.inr ?_)⟩
    exact not_not.mp fun kept => failed (result.flushed kept).1
  · have result := do_insert_result { con with state := .ready } false call.replies.flush rfl rows
    obtain ⟨kept, ptr, cnt⟩ := flush_succeeded { con with state := .ready }
      call.replies.flush rfl rows flushed
    generalize dbBulkDoInsert _ false call.replies.flush = flush at done result ptr cnt
    rw [done] at inside
    have behind : Oversize flush.1 call.row :=
      (oversize_flushed buffer call.row result).mpr oversize
    have rewound : flush.1.bulkPtr = flush.1.bulkValues := ptr.trans result.values.symm
    exact absurd (inside _ rfl)
      (not_within_of_oversize _ buffer call.row behind cnt rewound _ rfl)
  · exact absurd (by omega) room

/-- What `db_bulk_insert_init` can do: it stops at an open result set and returns 0, it
fails, with or without a new length, or the header is in a new buffer. -/
theorem init_cases (con : Connection) (inputs : InitInputs) (query : CString)
    (open_ : con.state ≠ .invalid) :
    let stuck := con.state = .resultSet ∧ inputs.freeRc ≠ 0
    stuck ∧ dbBulkInsertInit con inputs query = ({ con with state := .ready }, 0) ∨
    ¬ stuck ∧ (dbBulkInsertInit con inputs query = ({ con with state := .ready }, 1) ∨
      dbBulkInsertInit con inputs query = ({ con with
        state := .ready, bulkBuflen := bulkPacketSize, bulkBuffer := none }, 1) ∨
      ∃ needsCommit contents, inputs.describe = some needsCommit ∧
        query.strlen + 1 ≤ bulkPacketSize ∧ dbBulkInsertInit con inputs query = ({ con with
          state := .ready
          bulkBuflen := bulkPacketSize
          bulkCommitMax := if needsCommit then rowsBeforeCommit else 0
          bulkCommitCnt := 0
          bulkBuffer := some ((allocated contents).strcpy 0 query)
          bulkPtr := query.strlen
          bulkValues := query.strlen
          bulkCnt := 0 }, 0)) := by
  intro stuck
  unfold dbBulkInsertInit
  rw [if_neg open_]
  simp only [freed_connection con open_]
  by_cases stopped : stuck
  · rw [if_pos stopped]
    exact Or.inl ⟨stopped, rfl⟩
  · rw [if_neg stopped]
    refine Or.inr ⟨stopped, ?_⟩
    cases describe : inputs.describe with
    | none => exact Or.inl rfl
    | some needsCommit =>
        by_cases long : bulkPacketSize < query.strlen + 1
        · simp only [if_pos long]
          exact Or.inl trivial
        · simp only [if_neg long]
          cases inputs.malloced with
          | none => exact Or.inr (Or.inl rfl)
          | some contents =>
              exact Or.inr (Or.inr ⟨needsCommit, contents, rfl, Nat.not_lt.mp long, rfl⟩)

/-- What an accepted header leaves in the connection. -/
theorem init_accepted {con started : Connection} {inputs : InitInputs} {query : CString}
    (open_ : con.state ≠ .invalid) (freed : con.state = .resultSet → inputs.freeRc = 0)
    (accepted : dbBulkInsertInit con inputs query = (started, 0)) :
    ∃ needsCommit contents, inputs.describe = some needsCommit ∧
      query.strlen + 1 ≤ bulkPacketSize ∧ started = { con with
        state := .ready
        bulkBuflen := bulkPacketSize
        bulkCommitMax := if needsCommit then rowsBeforeCommit else 0
        bulkCommitCnt := 0
        bulkBuffer := some ((allocated contents).strcpy 0 query)
        bulkPtr := query.strlen
        bulkValues := query.strlen
        bulkCnt := 0 } := by
  rcases init_cases con inputs query open_ with
    ⟨stuck, _⟩ | ⟨_, failed | failed | ⟨needsCommit, contents, described, small, done⟩⟩
  · exact absurd (freed stuck.1) stuck.2
  · simp [failed] at accepted
  · simp [failed] at accepted
  · rw [done] at accepted
    exact ⟨needsCommit, contents, described, small, (Prod.mk.inj accepted).1.symm⟩

theorem header_invariant (con : Connection) (contents : Nat → UInt8) (query : CString)
    (commitMax : Nat) (small : query.strlen + 1 ≤ bulkPacketSize) :
    BulkInvariant { con with
      state := .ready
      bulkBuflen := bulkPacketSize
      bulkCommitMax := commitMax
      bulkCommitCnt := 0
      bulkBuffer := some ((allocated contents).strcpy 0 query)
      bulkPtr := query.strlen
      bulkValues := query.strlen
      bulkCnt := 0 } ((allocated contents).strcpy 0 query) := by
  refine ⟨by simp, rfl, ?_, rfl, Nat.le_refl _, small, fun _ => rfl, by simp⟩
  rw [within_strcpy]
  exact ⟨allocated_within contents _, by rw [Nat.zero_add]; exact small⟩

/-- An accepted header starts a session whose invariant holds. -/
theorem init_invariant (con started : Connection) (inputs : InitInputs) (query : CString)
    (open_ : con.state ≠ .invalid) (freed : con.state = .resultSet → inputs.freeRc = 0)
    (accepted : dbBulkInsertInit con inputs query = (started, 0)) :
    ∃ buffer, BulkInvariant started buffer := by
  obtain ⟨_, contents, _, small, rfl⟩ := init_accepted open_ freed accepted
  exact ⟨_, header_invariant con contents query _ small⟩

theorem init_keeps (session : Session) (inputs : InitInputs) (query : CString)
    (valid : SessionInvariant session) (handled : Handled session (.init inputs query)) :
    SessionInvariant {
      con := (dbBulkInsertInit session.con inputs query).1
      begun := (dbBulkInsertInit session.con inputs query).2 == 0
      last := none } := by
  have sound := valid.sound
  rcases init_cases session.con inputs query (sound_open sound) with
    ⟨stuck, done⟩ | ⟨_, done | done | ⟨needsCommit, contents, _, small, done⟩⟩
  · rw [done]
    refine ⟨sound_ready sound, fun _ => ?_, nofun⟩
    exact (sound_buflen sound).resolve_left (handled stuck.1 stuck.2)
  · rw [done]
    exact ⟨sound_ready sound, nofun, nofun⟩
  · rw [done]
    obtain ⟨header, room⟩ := sound_ptr sound
    exact ⟨Or.inl ⟨by simp, rfl, Or.inr rfl, header, room⟩, nofun, nofun⟩
  · rw [done]
    exact ⟨Or.inr ⟨_, header_invariant session.con contents query _ small⟩, fun _ => rfl, nofun⟩

theorem next_keeps (session : Session) (call : BulkCall) (valid : SessionInvariant session)
    (begun : session.begun = true) (handled : RowHandled session.con call) :
    SessionInvariant { session with
      con := (dbBulkInsertNext session.con call.replies call.row).1
      last := some (call.row, (dbBulkInsertNext session.con call.replies call.row).2) } := by
  have packet := valid.begun begun
  rcases valid.sound with closed | ⟨buffer, invariant⟩
  · rw [closed_next session.con call closed]
    refine ⟨sound_ready (Or.inl closed), fun _ => packet, ?_⟩
    rintro row rc last oversize
    cases last
    have free := (handled oversize).1
    simp only [ne_eq, ite_eq_left_iff, one_ne_zero, imp_false, not_not]
    exact fun stuck => stuck.2 (free stuck.1)
  · obtain ⟨⟨copied, after⟩, rejected⟩ :=
      handled_row_keeps session.con buffer call invariant handled
    refine ⟨Or.inr ⟨copied, after⟩, fun _ => after.buflen, ?_⟩
    rintro row rc last oversize
    cases last
    exact rejected oversize

theorem done_keeps (session : Session) (replies : FlushReplies) (valid : SessionInvariant session)
    (begun : session.begun = true) : SessionInvariant {
      con := (dbBulkInsertDone session.con replies).1
      begun := (dbBulkInsertDone session.con replies).2 != 0
      last := none } := by
  have sound := valid.sound
  have packet := valid.begun begun
  -- the flush, if there is one, keeps the buffer, and its success frees it
  have flushed : Sound (dbBulkDoInsert session.con true replies).1 ∧
      (dbBulkDoInsert session.con true replies).1.bulkBuflen = bulkPacketSize := by
    by_cases rows : session.con.bulkCnt = 0
    · rw [dbBulkDoInsert, if_pos rows]
      exact ⟨sound, packet⟩
    · obtain ⟨fails, result⟩ := do_insert_open session.con true replies (sound_open sound) rows
      exact ⟨flushed_sound sound result, result.buflen.trans packet⟩
  simp only [dbBulkInsertDone]
  by_cases failed : (dbBulkDoInsert session.con true replies).2 ≠ 0
  · rw [if_pos failed]
    exact ⟨flushed.1, fun _ => flushed.2, nofun⟩
  · rw [if_neg failed]
    have open_ := sound_open flushed.1
    have buflen := sound_buflen flushed.1
    obtain ⟨header, room⟩ := sound_ptr flushed.1
    exact ⟨Or.inl ⟨open_, rfl, buflen, header, room⟩, nofun, nofun⟩

theorem step_keeps (session : Session) (call : Call) (after : Session)
    (valid : SessionInvariant session) (handled : Handled session call)
    (taken : step session call = some after) : SessionInvariant after := by
  cases call with
  | query freeRc reply text =>
      obtain rfl := Option.some.inj taken
      have frame := db_query_frame session.con freeRc reply text
      have open_ := (db_query_fails_iff session.con freeRc reply text (sound_open valid.sound)).2
      refine ⟨sound_frame valid.sound frame open_, fun begun => ?_, nofun⟩
      exact frame.buflen.trans (valid.begun begun)
  | init inputs query =>
      obtain rfl := Option.some.inj taken
      exact init_keeps session inputs query valid handled
  | next call =>
      obtain ⟨begun, taken⟩ := Option.ite_none_right_eq_some.mp taken
      obtain rfl := Option.some.inj taken
      exact next_keeps session call valid begun handled
  | done replies =>
      obtain ⟨begun, taken⟩ := Option.ite_none_right_eq_some.mp taken
      obtain rfl := Option.some.inj taken
      exact done_keeps session replies valid begun

/-- A step outside the condition leaves the session unsafe. -/
theorem step_breaks (session : Session) (call : Call) (after : Session)
    (valid : SessionInvariant session) (taken : step session call = some after)
    (safe : BulkSafe after) : Handled session call := by
  cases call with
  | query freeRc reply text => trivial
  | init inputs query =>
      intro shown kept none_
      obtain rfl := Option.some.inj taken
      rcases init_cases session.con inputs query (sound_open valid.sound) with
        ⟨_, done⟩ | ⟨free, _⟩
      · have room := safe.room (by rw [done]; rfl)
        rw [done] at room
        simp only [none_] at room
        exact absurd room (Nat.not_succ_le_zero _)
      · exact free ⟨shown, kept⟩
  | next call =>
      obtain ⟨begun, taken⟩ := Option.ite_none_right_eq_some.mp taken
      obtain rfl := Option.some.inj taken
      rcases valid.sound with closed | ⟨buffer, invariant⟩
      · intro oversize
        refine ⟨fun shown => ?_, Or.inl closed.empty⟩
        by_contra kept
        have outcome := closed_next session.con call closed
        rw [if_pos ⟨shown, kept⟩] at outcome
        refine safe.rejected call.row 0 (by rw [outcome]) ?_ rfl
        rw [outcome]
        exact oversize
      · exact unhandled_row_breaks session.con buffer call invariant safe.inside
          fun oversize => safe.rejected _ _ rfl oversize
  | done replies => trivial

def freshConnection : Connection :=
  { state := .ready, error := .none, counter := .other, bulkCnt := 0, bulkBuflen := 0,
    bulkBuffer := none, bulkPtr := 0, bulkValues := 0, bulkCommitCnt := 0, bulkCommitMax := 0,
    sent := [] }

/-- A new connection. -/
def start : Session := { con := freshConnection, begun := false, last := none }

theorem start_invariant : SessionInvariant start :=
  ⟨Or.inl ⟨by decide, rfl, Or.inl rfl, Nat.le_refl _, by decide⟩, nofun, nofun⟩

/-- The sessions of a connection stay inside its buffer and reject every row that cannot
fit exactly when every call meets the condition. -/
theorem bulk_session_safe_iff (schedule : List Call) :
    Always step BulkSafe start schedule ↔ Guarded step Handled start schedule :=
  always_iff_guarded session_safe step_keeps step_breaks _ schedule start_invariant

def succeeding : NextReplies :=
  { freeRc := 0
    flush := { insertFree := 0, insert := ⟨.none, .write⟩, commitFree := 0,
               commit := ⟨.none, .other⟩ } }

/-- `count` letters. -/
def letters (count : Nat) (sized : count < 2 ^ 63) : CString :=
  { bytes := List.replicate count 65
    noTerminator := fun member => absurd (List.eq_of_mem_replicate member) (by decide)
    sized := by simpa using sized }

@[simp] theorem letters_strlen (count : Nat) (sized : count < 2 ^ 63) :
    (letters count sized).strlen = count := List.length_replicate

/-- `INSERT ...` of 20 bytes, accepted on a fresh connection. -/
def startInputs : InitInputs :=
  { freeRc := 0, describe := some true, malloced := some fun _ => 0 }

def header : CString := letters 20 (by decide)

def freshSession : Session :=
  { con := (dbBulkInsertInit freshConnection startInputs header).1, begun := true, last := none }

/-- The session after a row of three letters. -/
def oneRow : Session :=
  let outcome := dbBulkInsertNext freshSession.con succeeding (letters 3 (by decide))
  { con := outcome.1, begun := true, last := some (letters 3 (by decide), outcome.2) }

/-- A short row and then one of 512 KiB: the second is copied behind the header. -/
theorem second_row_overflows :
    ¬ Always step BulkSafe start
      [.init startInputs header, .next ⟨succeeding, letters 3 (by decide)⟩,
        .next ⟨succeeding, letters (512 * 1024) (by decide)⟩] := by
  intro all
  have begins : SessionInvariant freshSession :=
    init_keeps start startInputs header start_invariant (fun shown => nomatch shown)
  have short : RowHandled freshSession.con ⟨succeeding, letters 3 (by decide)⟩ := by
    intro oversize
    unfold Oversize at oversize
    rw [letters_strlen] at oversize
    exact absurd oversize (by decide)
  have valid : SessionInvariant oneRow := next_keeps freshSession _ begins rfl short
  have later := (all.2 freshSession rfl).2 oneRow rfl
  have safe := always_head _ _ (later.2 _ rfl)
  have oversize : Oversize oneRow.con (letters (512 * 1024) (by decide)) := by
    unfold Oversize
    rw [letters_strlen]
    decide
  have handled := step_breaks oneRow (.next ⟨succeeding, letters (512 * 1024) (by decide)⟩) _
    valid rfl safe
  rcases (handled oversize).2 with missing | noRows | failed
  · cases missing
  · exact absurd noRows (by decide)
  · rcases failed with insert | ⟨due, _⟩
    · exact insert rfl
    · exact absurd due.2 (by decide)
end Sessions
end PteSysbench.BulkInsert
