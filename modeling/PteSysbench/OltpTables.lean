import PteSysbench.BulkRows
import PteSysbench.LoggerBuffers
import PteSysbench.OltpCommon
import Mathlib.Data.Nat.ModEq

/-!
The command `prepare` of oltp_common.lua and the threads that sb_lua.c runs it in. Every
thread has a connection and a share of the tables, and fills a table with one bulk insert.
What the servers answer and what is drawn at random are inputs.
-/

namespace PteSysbench.OltpTables

open BulkInsert BulkRows ByteBuffer DbDriver OltpCommon ThrowingScripts

/-! The command. -/
section Command

inductive Driver where
  | mysql
  | pgsql
  | other
  deriving DecidableEq

/-- The options that `cmd_prepare` reads. The numbers are taken to be whole, though
sysbench.cmdline.lua passes on any double; a Lua number is exact up to `2 ^ 53`. -/
structure Options where
  threads : Nat
  tables : Int
  tableSize : Int
  dbDriver : Driver
  autoInc : Bool
  secondary : Bool
  createSecondary : Bool
  createTableOptions : List UInt8
  mysqlStorageEngine : List UInt8
  some_ : 0 < threads
  precise : tables ≤ 2 ^ 53 ∧ tableSize ≤ 2 ^ 53

/-- `sysbench.rand.default` and the digits of the two strings of a row. -/
structure RowDraws where
  k : UInt32
  c : Nat → Fin 11
  pad : Nat → Fin 11

structure FlushAnswers where
  insert : QueryReply
  commit : QueryReply

/-- `free_results` of both drivers returns 0 on a result set that is open. -/
def FlushAnswers.replies (answers : FlushAnswers) : FlushReplies :=
  { insertFree := 0, insert := answers.insert, commitFree := 0, commit := answers.commit }

/-- What the server, and malloc, answer while a table is made. -/
structure TableAnswers where
  create : QueryReply
  describe : Option Bool
  malloced : Option (Nat → UInt8)
  next : Nat → FlushAnswers
  last : FlushAnswers
  index : QueryReply

/-- What one thread is given, by the numbers of the table and of the row. -/
structure Inputs where
  newState : Bool
  exported : Bool
  connected : Bool
  draws : Nat → Nat → RowDraws
  answers : Nat → TableAnswers

inductive Thrown where
  | connection
  | driver
  | sql
  | assertion
  deriving DecidableEq

abbrev Lua (Result : Type) := Script BulkInsert.Connection Thrown Result

/-- The values of `for i = first, limit, step`. -/
def numericFor (first : Nat) (limit : Int) (step : Nat) : List Nat :=
  List.range' first ((limit.toNat + step - first) / step) step

/-- A Lua string as `strlen` finds it; memory holds no longer one. -/
def cString (bytes : List UInt8) : CString where
  bytes := (untilTerminator bytes).take (2 ^ 63 - 1)
  noTerminator := fun member => by
    have inside := List.mem_takeWhile_imp (List.mem_of_mem_take member)
    simp at inside
  sized := Nat.lt_of_le_of_lt (List.length_take_le _ _) (by decide)

/-- The variable `pgsql_variant` that is compared with 'redshift' is not the option of
this name and never set. -/
def idDef (opt : Options) : List UInt8 :=
  if opt.dbDriver = .mysql then
    ascii (if opt.autoInc then "INTEGER NOT NULL AUTO_INCREMENT" else "INTEGER NOT NULL")
  else ascii (if opt.autoInc then "SERIAL" else "INTEGER NOT NULL")

def engineDef (opt : Options) : List UInt8 :=
  if opt.dbDriver = .mysql then ascii "/*! ENGINE = " ++ opt.mysqlStorageEngine ++ ascii " */"
  else []

def createText (opt : Options) (t : Nat) : List UInt8 :=
  ascii "CREATE TABLE sbtest" ++ decimal t ++ ascii "(\n  id " ++ idDef opt ++
    ascii ",\n  k INTEGER DEFAULT '0' NOT NULL,\n  c CHAR(120) DEFAULT '' NOT NULL,\n" ++
    ascii "  pad CHAR(60) DEFAULT '' NOT NULL,\n  " ++
    ascii (if opt.secondary then "KEY xid" else "PRIMARY KEY") ++ ascii " (id)\n) " ++
    engineDef opt ++ ascii " " ++ opt.createTableOptions

def header (opt : Options) (t : Nat) : List UInt8 :=
  ascii "INSERT INTO sbtest" ++ decimal t ++
    ascii (if opt.autoInc then "(k, c, pad) VALUES" else "(id, k, c, pad) VALUES")

def rowText (opt : Options) (i : Nat) (draws : RowDraws) : List UInt8 :=
  let id := if opt.autoInc then [] else decimal i ++ ascii ", "
  ascii "(" ++ id ++ decimal draws.k.toNat ++ ascii ", " ++
    quoted (fill draws.c cValueTemplate) ++ ascii ", " ++
    quoted (fill draws.pad padValueTemplate) ++ ascii ")"

def indexText (t : Nat) : List UInt8 :=
  ascii "CREATE INDEX k_" ++ decimal t ++ ascii " ON sbtest" ++ decimal t ++ ascii "(k)"

/-- `con:query`. -/
def query (text : List UInt8) (reply : QueryReply) : Lua Unit := do
  let con ← get
  let outcome := dbQuery con 0 reply text
  set outcome.1
  if outcome.2 = true ∨ outcome.1.error = .none then pure () else throw .sql

/-- `assert` around a function of db_driver.c that returns 0 on success. -/
def asserted (call : BulkInsert.Connection → BulkInsert.Connection × Int) : Lua Unit := do
  let con ← get
  set (call con).1
  if (call con).2 = 0 then pure () else throw .assertion

def insertRow (opt : Options) (inputs : Inputs) (t i : Nat) : Lua Unit :=
  asserted fun con => dbBulkInsertNext con ⟨0, ((inputs.answers t).next i).replies⟩
    (cString (rowText opt i (inputs.draws t i)))

def createTable (opt : Options) (inputs : Inputs) (t : Nat) : Lua Unit :=
  if opt.dbDriver = .other then throw .driver
  else do
    query (createText opt t) (inputs.answers t).create
    asserted fun con => dbBulkInsertInit con
      ⟨0, (inputs.answers t).describe, (inputs.answers t).malloced⟩ (cString (header opt t))
    (numericFor 1 opt.tableSize 1).forM (insertRow opt inputs t)
    asserted fun con => dbBulkInsertDone con (inputs.answers t).last.replies
    if opt.createSecondary then query (indexText t) (inputs.answers t).index else pure ()

/-- The tables that the thread `tid` makes. -/
def share (opt : Options) (tid : Nat) : List Nat :=
  numericFor (tid % opt.threads + 1) opt.tables opt.threads

/-- `sysbench.sql.driver` and `drv:connect`. -/
def connect (inputs : Inputs) : Lua Unit :=
  if inputs.connected then modify fun con => { con with state := .ready }
  else throw .connection

def cmdPrepare (opt : Options) (inputs : Inputs) (tid : Nat) : Lua Unit := do
  connect inputs
  (share opt tid).forM (createTable opt inputs)

def unconnected : BulkInsert.Connection where
  state := .invalid
  error := .none
  counter := .other
  bulkCnt := 0
  bulkBuflen := 0
  bulkBuffer := none
  bulkPtr := 0
  bulkValues := 0
  bulkCommitCnt := 0
  bulkCommitMax := 0
  sent := []

/-- The session the command leaves and what `call_custom_command` returns. -/
def callCustomCommand (opt : Options) (inputs : Inputs) (tid : Nat) :
    BulkInsert.Connection × Int :=
  if inputs.exported = false then (unconnected, 1)
  else
    match cmdPrepare opt inputs tid unconnected with
    | .ok _ con => (con, 0)
    | .error _ con => (con, 1)

/-- The thread drops what `call_custom_command` returns. -/
def cmdWorkerThread (opt : Options) (inputs : Inputs) (tid : Nat) : BulkInsert.Connection :=
  if inputs.newState then (callCustomCommand opt inputs tid).1 else unconnected

/-- The sessions of the threads, and the exit code. Creating threads stops at the first
that cannot be created, joining them always succeeds. -/
def sbLuaCallCustomCommand (opt : Options) (creates : Nat → Bool) (inputs : Nat → Inputs) :
    List (Nat × BulkInsert.Connection) × Int :=
  if 1 < opt.threads then
    let made := (List.range opt.threads).takeWhile creates
    (made.map fun tid => (tid, cmdWorkerThread opt (inputs tid) tid),
      if made.length = opt.threads then 0 else 1)
  else
    let outcome := callCustomCommand opt (inputs 0) 0
    ([(0, outcome.1)], outcome.2)
end Command

/-! The shares. -/
section Shares

theorem mem_numeric_for {first step : Nat} {limit : Int} (moves : 0 < step) (i : Nat) :
    i ∈ numericFor first limit step ↔
      first ≤ i ∧ i ≤ limit.toNat ∧ i % step = first % step := by
  rw [numericFor, List.mem_range']
  -- the turns before the limit
  have inside (turn : Nat) : turn < (limit.toNat + step - first) / step ↔
      first + step * turn ≤ limit.toNat := by
    rw [← Nat.succ_le_iff, Nat.le_div_iff_mul_le moves, Nat.succ_mul, Nat.mul_comm turn]
    omega
  constructor
  · rintro ⟨turn, before, rfl⟩
    exact ⟨Nat.le_add_right _ _, (inside turn).mp before, Nat.add_mul_mod_self_left _ _ _⟩
  · rintro ⟨least, most, same⟩
    obtain ⟨turn, gap⟩ := (Nat.modEq_iff_dvd' least).mp same.symm
    have reached : i = first + step * turn := by omega
    exact ⟨turn, (inside turn).mpr (reached ▸ most), reached⟩

theorem numeric_for_nodup (first : Nat) (limit : Int) {step : Nat} (moves : 0 < step) :
    (numericFor first limit step).Nodup :=
  List.nodup_range' _ moves

theorem mem_share (opt : Options) {tid : Nat} (t : Nat) :
    t ∈ share opt tid ↔
      1 ≤ t ∧ t ≤ opt.tables.toNat ∧ (t - 1) % opt.threads = tid % opt.threads := by
  have threads := opt.some_
  have inside := Nat.mod_lt tid threads
  rw [share, mem_numeric_for threads]
  constructor
  · rintro ⟨least, most, same⟩
    have moved : (t - 1 + 1) % opt.threads = (tid % opt.threads + 1) % opt.threads := by
      rwa [Nat.sub_add_cancel (by omega)]
    have kept : (t - 1) % opt.threads = tid % opt.threads % opt.threads :=
      Nat.ModEq.add_right_cancel' 1 moved
    rw [Nat.mod_mod] at kept
    exact ⟨by omega, most, kept⟩
  · rintro ⟨least, most, same⟩
    have smallest := Nat.mod_le (t - 1) opt.threads
    refine ⟨by omega, most, ?_⟩
    rw [← same, Nat.mod_add_mod, Nat.sub_add_cancel least]

/-- A table belongs to one thread only. -/
theorem shares_nodup (opt : Options) (tids : List Nat) (distinct : tids.Nodup)
    (workers : ∀ tid ∈ tids, tid < opt.threads) : (tids.flatMap (share opt)).Nodup := by
  refine List.nodup_flatMap.mpr ⟨fun tid _ => numeric_for_nodup _ _ opt.some_, ?_⟩
  refine distinct.imp_of_mem fun {a b} first second different => ?_
  intro t mine yours
  have one := ((mem_share opt t).mp mine).2.2
  have two := ((mem_share opt t).mp yours).2.2
  rw [Nat.mod_eq_of_lt (workers a first)] at one
  rw [Nat.mod_eq_of_lt (workers b second)] at two
  exact different (one.symm.trans two)

theorem shares_perm (opt : Options) :
    ((List.range opt.threads).flatMap (share opt)).Perm (numericFor 1 opt.tables 1) := by
  refine (List.perm_ext_iff_of_nodup (shares_nodup opt _ List.nodup_range fun _ =>
    List.mem_range.mp) (numeric_for_nodup _ _ Nat.one_pos)).mpr fun t => ?_
  rw [List.mem_flatMap, mem_numeric_for Nat.one_pos]
  constructor
  · rintro ⟨tid, _, member⟩
    obtain ⟨least, most, _⟩ := (mem_share opt t).mp member
    exact ⟨least, most, by simp [Nat.mod_one]⟩
  · rintro ⟨least, most, _⟩
    have inside := Nat.mod_lt (t - 1) opt.some_
    refine ⟨(t - 1) % opt.threads, List.mem_range.mpr inside, ?_⟩
    exact (mem_share opt t).mpr ⟨least, most, (Nat.mod_mod _ _).symm⟩
end Shares

/-! Flushes by what the server answers. -/
section Flushes
variable {con : BulkInsert.Connection}

/-- A flush that returned 0 went as one on a server on which everything succeeds. -/
theorem flush_settled (isLast : Bool) (answers : FlushAnswers) (ready : con.state = .ready)
    (rows : con.bulkCnt ≠ 0) (done : (dbBulkDoInsert con isLast answers.replies).2 = 0) :
    ∃ others, Succeeds others ∧
      dbBulkDoInsert con isLast answers.replies = dbBulkDoInsert con isLast others := by
  have result := do_insert_result con isLast answers.replies ready rows
  have kept : ¬ FlushFails con isLast answers.replies := fun lost => by
    rw [(result.failed lost).1] at done
    exact absurd done (by decide)
  have inserted : answers.insert.error = .none := not_not.mp fun failed => kept (.inl failed)
  by_cases due : CommitDue con isLast
  · have committed : answers.commit.error = .none :=
      not_not.mp fun failed => kept (.inr ⟨due, .inr failed⟩)
    exact ⟨answers.replies, ⟨inserted, committed, rfl, rfl⟩, rfl⟩
  · -- no COMMIT is sent, whatever its answer would be
    refine ⟨{ answers.replies with commit := ⟨.none, .other⟩ }, ⟨inserted, rfl, rfl, rfl⟩, ?_⟩
    unfold CommitDue at due
    by_cases noCommit : con.bulkCommitMax = 0
    · simp [dbBulkDoInsert, FlushAnswers.replies, noCommit]
    · have early : ¬ (isLast = true ∨ con.bulkCommitMax ≤ uncommitted con) :=
        fun owed => due ⟨noCommit, owed⟩
      simp [dbBulkDoInsert, FlushAnswers.replies, early]

/-- A flush sends the INSERT first and nothing behind it but a COMMIT. -/
theorem flush_sent (text : CString) (isLast : Bool) (answers : FlushAnswers)
    (open_ : con.state ≠ .invalid) (rows : con.bulkCnt ≠ 0) :
    ∃ commits : List Statement, (∀ statement ∈ commits, statement = .commit) ∧
      (dbBulkDoInsert con isLast answers.replies).1.sent =
        con.sent ++ bulkText con :: commits.map (Statement.text text) := by
  have inserted := (db_query_sent con answers.insert (bulkText con) open_).1
  have stillOpen := (db_query_fails_iff con 0 answers.insert (bulkText con) open_).2
  rw [dbBulkDoInsert, if_neg rows, show answers.replies.insertFree = 0 from rfl,
    show answers.replies.insert = answers.insert from rfl]
  generalize dbQuery con 0 answers.insert (bulkText con) = answer at *
  obtain ⟨after, result⟩ := answer
  have nothing : ∃ commits : List Statement, (∀ statement ∈ commits, statement = .commit) ∧
      after.sent = con.sent ++ bulkText con :: commits.map (Statement.text text) :=
    ⟨[], by simp, by simpa using inserted⟩
  have committed := (db_query_sent { after with bulkCommitCnt := uncommitted con }
    answers.commit commitText stillOpen).1
  have both : ∃ commits : List Statement, (∀ statement ∈ commits, statement = .commit) ∧
      (dbQuery { after with bulkCommitCnt := uncommitted con } 0 answers.commit
        commitText).1.sent = con.sent ++ bulkText con :: commits.map (Statement.text text) := by
    refine ⟨[.commit], by simp, ?_⟩
    have sent : after.sent = con.sent ++ [bulkText con] := inserted
    exact committed.trans (by simp [sent, Statement.text])
  dsimp only
  split
  · exact nothing
  split
  · exact nothing
  split
  · split <;> exact both
  · exact nothing

variable {text : CString} {before : List (List UInt8)} {commitMax : Nat}
  {script : List Statement} {buffered : List CString}

/-- What has been sent when rows were lost: an INSERT is sent once, whatever comes of it. -/
structure Sent (text : CString) (before : List (List UInt8)) (con : BulkInsert.Connection)
    (script : List Statement) (rows : List CString) : Prop where
  sent : con.sent = before ++ script.map (Statement.text text)
  noEmpty : NoEmptyInsert script
  rows : rowsOf script = rows

theorem flush_started (holds : Holds text before commitMax con script buffered)
    (some_ : buffered ≠ []) (isLast : Bool) (answers : FlushAnswers) :
    ∃ all, Sent text before (dbBulkDoInsert con isLast answers.replies).1 all
      (rowsOf script ++ buffered) := by
  obtain ⟨buffer, valid, contents⟩ := holds.invariant
  have rows : con.bulkCnt ≠ 0 := by
    rw [holds.cnt]
    exact (List.length_pos_iff.mpr some_).ne'
  obtain ⟨commits, only, sent⟩ := flush_sent text isLast answers valid.open_ rows
  have inserted : bulkText con = text.bytes ++ joined buffered := by
    simp only [bulkText, valid.allocated, contents]
  refine ⟨script ++ .insert buffered :: commits, ⟨?_, ?_, rows_inserted script commits buffered
    only⟩⟩
  · rw [sent, holds.sent, inserted]
    simp [Statement.text]
  · intro member
    rcases List.mem_append.mp member with old | new
    · exact holds.noEmpty old
    · rcases List.mem_cons.mp new with same | later
      · exact some_ (Statement.insert.inj same).symm
      · cases only _ later

theorem next_congr (open_ : con.state ≠ .invalid) (row : CString) (one two : FlushReplies)
    (same : con.bulkBuflen < con.bulkPtr + row.strlen + 1 + comma con →
      dbBulkDoInsert { con with state := .ready } false one =
        dbBulkDoInsert { con with state := .ready } false two) :
    dbBulkInsertNext con ⟨0, one⟩ row = dbBulkInsertNext con ⟨0, two⟩ row := by
  unfold dbBulkInsertNext
  simp only [if_neg open_, freed_connection con open_]
  by_cases full : con.bulkBuflen < con.bulkPtr + row.strlen + 1 + comma con
  · rw [same full]
  · have room : ¬ con.bulkBuflen < con.bulkPtr + row.strlen + 1 +
        comma { con with state := .ready } := full
    simp only [if_neg room]

/-- A row that was taken is behind all rows before it. -/
theorem next_done (holds : Holds text before commitMax con script buffered) (row : CString)
    (fits : text.strlen + row.strlen + 1 ≤ bulkPacketSize) (answers : FlushAnswers)
    (done : (dbBulkInsertNext con ⟨0, answers.replies⟩ row).2 = 0) :
    ∃ later kept,
      Holds text before commitMax (dbBulkInsertNext con ⟨0, answers.replies⟩ row).1 later kept ∧
        rowsOf later ++ kept = rowsOf script ++ buffered ++ [row] ∧ kept ≠ [] := by
  obtain ⟨buffer, valid, _⟩ := holds.invariant
  have taken (others : FlushReplies) (succeeds : Succeeds others)
      (same : dbBulkInsertNext con ⟨0, answers.replies⟩ row =
        dbBulkInsertNext con ⟨0, others⟩ row) : _ :=
    same ▸ (next_holds holds ⟨⟨0, others⟩, row⟩ ⟨fits, rfl, succeeds⟩).2
  rcases next_cases con buffer ⟨0, answers.replies⟩ row valid.open_ valid.allocated with
    ⟨stuck, _⟩ | ⟨_, _, _, lost⟩ | ⟨_, _, _, _, lost⟩ | ⟨_, _, rows, flushed, _⟩ | ⟨_, room, _⟩
  · exact absurd rfl stuck.2
  · rw [lost] at done
    exact absurd (show (1 : Int) = 0 from done) (by decide)
  · rw [lost] at done
    exact absurd (show (1 : Int) = 0 from done) (by decide)
  · obtain ⟨others, succeeds, same⟩ :=
      @flush_settled { con with state := .ready } false answers rfl rows flushed
    exact taken others succeeds (next_congr valid.open_ row _ _ fun _ => same)
  · exact taken ⟨0, ⟨.none, .other⟩, 0, ⟨.none, .other⟩⟩ ⟨rfl, rfl, rfl, rfl⟩
      (next_congr valid.open_ row _ _ fun full => absurd full room)

theorem next_failed (holds : Holds text before commitMax con script buffered) (row : CString)
    (fits : text.strlen + row.strlen + 1 ≤ bulkPacketSize) (answers : FlushAnswers)
    (failed : (dbBulkInsertNext con ⟨0, answers.replies⟩ row).2 ≠ 0) :
    ∃ all, Sent text before (dbBulkInsertNext con ⟨0, answers.replies⟩ row).1 all
      (rowsOf script ++ buffered) := by
  obtain ⟨buffer, valid, _⟩ := holds.invariant
  rcases next_cases con buffer ⟨0, answers.replies⟩ row valid.open_ valid.allocated with
    ⟨stuck, _⟩ | ⟨_, full, first, _⟩ | ⟨_, _, rows, _, lost⟩ | ⟨_, _, _, _, done⟩ | ⟨_, _, done⟩
  · exact absurd rfl stuck.2
  · -- the row fits behind the header alone
    have rewound := valid.empty first
    have values := holds.values
    have packet := valid.buflen
    simp only [comma, first, Nat.lt_irrefl, ↓reduceIte] at full
    omega
  · rw [lost]
    have some_ : buffered ≠ [] := by
      rintro rfl
      exact rows holds.cnt
    exact flush_started (holds_ready holds) some_ false answers
  · rw [done] at failed
    exact absurd rfl failed
  · rw [done] at failed
    exact absurd rfl failed

theorem done_done (holds : Holds text before commitMax con script buffered)
    (answers : FlushAnswers) (done : (dbBulkInsertDone con answers.replies).2 = 0)
    (none_ : buffered = [] → script = []) :
    ∃ all, Sent text before (dbBulkInsertDone con answers.replies).1 all
      (rowsOf script ++ buffered) ∧ (commitMax ≠ 0 → Committed all) := by
  obtain ⟨buffer, valid, _⟩ := holds.invariant
  have ended (others : FlushReplies) (succeeds : Succeeds others)
      (same : dbBulkDoInsert con true answers.replies = dbBulkDoInsert con true others) :
      ∃ all, Sent text before (dbBulkInsertDone con answers.replies).1 all
        (rowsOf script ++ buffered) ∧ (commitMax ≠ 0 → Committed all) := by
    obtain ⟨_, all, sent, noEmpty, rows, committed⟩ := done_holds holds others succeeds none_
    have unchanged : dbBulkInsertDone con answers.replies = dbBulkInsertDone con others := by
      rw [dbBulkInsertDone, dbBulkInsertDone, same]
    rw [unchanged]
    exact ⟨all, ⟨sent, noEmpty, rows⟩, committed⟩
  by_cases rows : con.bulkCnt = 0
  · exact ended ⟨0, ⟨.none, .other⟩, 0, ⟨.none, .other⟩⟩ ⟨rfl, rfl, rfl, rfl⟩
      (by rw [dbBulkDoInsert, if_pos rows, dbBulkDoInsert, if_pos rows])
  · have freed := do_insert_freed con true answers.replies valid.open_ rows rfl
    have flushed : (dbBulkDoInsert con true answers.replies).2 = 0 := by
      rw [dbBulkInsertDone] at done
      by_contra lost
      simp [lost] at done
    rw [freed] at flushed
    obtain ⟨others, succeeds, same⟩ :=
      @flush_settled { con with state := .ready } true answers rfl rows flushed
    refine ended others succeeds ?_
    rw [freed, do_insert_freed con true others valid.open_ rows succeeds.insertFree, same]

theorem done_failed (holds : Holds text before commitMax con script buffered)
    (answers : FlushAnswers) (failed : (dbBulkInsertDone con answers.replies).2 ≠ 0) :
    ∃ all, Sent text before (dbBulkInsertDone con answers.replies).1 all
      (rowsOf script ++ buffered) := by
  have lost : (dbBulkDoInsert con true answers.replies).2 ≠ 0 := fun flushed =>
    failed (by simp [dbBulkInsertDone, flushed])
  have some_ : buffered ≠ [] := by
    rintro rfl
    have empty : con.bulkCnt = 0 := holds.cnt
    exact lost (by simp [dbBulkDoInsert, empty])
  have same : dbBulkInsertDone con answers.replies =
      ((dbBulkDoInsert con true answers.replies).1, 1) := by
    rw [dbBulkInsertDone]
    simp [lost]
  rw [same]
  exact flush_started holds some_ true answers

theorem done_open (holds : Holds text before commitMax con script buffered)
    (answers : FlushAnswers) : (dbBulkInsertDone con answers.replies).1.state ≠ .invalid := by
  obtain ⟨buffer, valid, _⟩ := holds.invariant
  have flushed : (dbBulkDoInsert con true answers.replies).1.state ≠ .invalid := by
    by_cases rows : con.bulkCnt = 0
    · rw [dbBulkDoInsert, if_pos rows]
      exact valid.open_
    · rw [do_insert_freed con true answers.replies valid.open_ rows rfl]
      exact (do_insert_result { con with state := .ready } true answers.replies rfl rows).open_
  rw [dbBulkInsertDone]
  dsimp only
  split <;> exact flushed
end Flushes

/-! The texts of a table. -/
section Texts

theorem c_string_length (bytes : List UInt8) : (cString bytes).strlen ≤ bytes.length :=
  Nat.le_trans (List.length_take_le' _ _) (List.takeWhile_sublist _).length_le

theorem c_string_bytes {bytes : List UInt8} (visible : 0 ∉ bytes) (short : bytes.length < 2 ^ 63) :
    (cString bytes).bytes = bytes := by
  have whole : untilTerminator bytes = bytes := by
    refine List.takeWhile_eq_self_iff.mpr fun c member => ?_
    have different : c ≠ 0 := fun zero => visible (zero ▸ member)
    simp [different]
  show (untilTerminator bytes).take (2 ^ 63 - 1) = bytes
  rw [whole]
  exact List.take_of_length_le (Nat.le_sub_one_of_lt short)

theorem fill_length_le (digits : Nat → Fin 11) (template : List UInt8) :
    (fill digits template).length ≤ template.length := by
  unfold fill EmulatedStatements.sbRandStr
  rw [List.length_mapIdx]
  exact (List.takeWhile_sublist _).length_le

theorem fill_visible (digits : Nat → Fin 11) (template : List UInt8) (noLetters : 64 ∉ template) :
    0 ∉ fill digits template := by
  intro member
  unfold fill EmulatedStatements.sbRandStr at member
  obtain ⟨i, inside, drawn⟩ := List.mem_mapIdx.mp member
  have here := List.getElem_mem inside
  split at drawn
  · have digit : ∀ d : Fin 11, (48 + UInt8.ofNat d : UInt8) ≠ 0 := by decide
    exact digit _ drawn
  split at drawn
  · rename_i letter
    rw [letter] at here
    exact noLetters ((List.takeWhile_sublist _).mem here)
  · have kept := List.mem_takeWhile_imp here
    simp [drawn] at kept

theorem number_length {i : Nat} (precise : i ≤ 2 ^ 53) : (decimal i).length ≤ 16 :=
  LoggerBuffers.decimal_length i 16 (by decide) (Nat.lt_of_le_of_lt precise (by decide))

theorem header_length (opt : Options) {t : Nat} (precise : t ≤ 2 ^ 53) :
    (header opt t).length ≤ 56 := by
  have number := number_length precise
  have name : (ascii "INSERT INTO sbtest").length = 18 := by decide
  have columns : (ascii (if opt.autoInc then "(k, c, pad) VALUES"
      else "(id, k, c, pad) VALUES")).length ≤ 22 := by
    cases opt.autoInc <;> decide
  unfold header
  simp only [List.length_append, name]
  omega

theorem row_length (opt : Options) {i : Nat} (precise : i ≤ 2 ^ 53) (draws : RowDraws) :
    (rowText opt i draws).length ≤ 216 := by
  have number := number_length precise
  have value := LoggerBuffers.decimal_length draws.k.toNat 10 (by decide)
    (Nat.lt_trans draws.k.toNat_lt (by decide))
  have c : (fill draws.c cValueTemplate).length ≤ 119 := fill_length_le _ _
  have pad : (fill draws.pad padValueTemplate).length ≤ 59 := fill_length_le _ _
  have comma_ : (ascii ", ").length = 2 := by decide
  have opening : (ascii "(").length = 1 := by decide
  have closing : (ascii ")").length = 1 := by decide
  have id : (if opt.autoInc then [] else decimal i ++ ascii ", ").length ≤ 18 := by
    split
    · exact Nat.zero_le _
    · rw [List.length_append, comma_]
      omega
  unfold rowText
  simp only [List.length_append, quoted, List.length_cons, List.length_nil, comma_, opening,
    closing]
  omega

theorem row_visible (opt : Options) (i : Nat) (draws : RowDraws) : 0 ∉ rowText opt i draws := by
  have number := decimal_no_terminator i
  have value := decimal_no_terminator draws.k.toNat
  have c := fill_visible draws.c cValueTemplate (by decide)
  have pad := fill_visible draws.pad padValueTemplate (by decide)
  have comma_ : 0 ∉ ascii ", " := by decide
  have opening : 0 ∉ ascii "(" := by decide
  have closing : 0 ∉ ascii ")" := by decide
  unfold rowText
  simp only [quoted]
  split <;> simp_all

/-- Every row fits behind the header. -/
theorem row_fits (opt : Options) {t i : Nat} (table : t ≤ 2 ^ 53) (row : i ≤ 2 ^ 53)
    (draws : RowDraws) :
    (cString (header opt t)).strlen + (cString (rowText opt i draws)).strlen + 1 ≤
      bulkPacketSize := by
  have first := Nat.le_trans (c_string_length _) (header_length opt table)
  have second := Nat.le_trans (c_string_length _) (row_length opt row draws)
  unfold bulkPacketSize
  omega

theorem row_bytes (opt : Options) {i : Nat} (row : i ≤ 2 ^ 53) (draws : RowDraws) :
    (cString (rowText opt i draws)).bytes = rowText opt i draws :=
  c_string_bytes (row_visible opt i draws)
    (Nat.lt_of_le_of_lt (row_length opt row draws) (by decide))
end Texts

/-! One table. -/
section Tables
variable {opt : Options} {inputs : Inputs} {t : Nat} {front : List (List UInt8)}

def rowTexts (opt : Options) (inputs : Inputs) (t : Nat) : List (List UInt8) :=
  (numericFor 1 opt.tableSize 1).map fun i => rowText opt i (inputs.draws t i)

def indexTexts (opt : Options) (t : Nat) : List (List UInt8) :=
  if opt.createSecondary then [indexText t] else []

/-- All that is sent for a table: the table, every row in one INSERT and in order, with a
COMMIT at the end for a driver that needs it, and the index. -/
def Whole (opt : Options) (inputs : Inputs) (t : Nat) (texts : List (List UInt8)) : Prop :=
  ∃ script, texts =
      createText opt t :: script.map (Statement.text (cString (header opt t))) ++
        indexTexts opt t ∧
    NoEmptyInsert script ∧ (rowsOf script).map CString.bytes = rowTexts opt inputs t ∧
    ((inputs.answers t).describe = some true → Committed script)

/-- What has been sent for a table when an error is thrown: nothing by another driver, the
table and its first rows, or everything if the index failed. -/
inductive Begun (opt : Options) (inputs : Inputs) (t : Nat) : List (List UInt8) → Prop where
  | refused (other : opt.dbDriver = .other) : Begun opt inputs t []
  | rows (script : List Statement) (noEmpty : NoEmptyInsert script)
      (first : (rowsOf script).map CString.bytes <+: rowTexts opt inputs t) :
      Begun opt inputs t (createText opt t :: script.map (Statement.text (cString (header opt t))))
  | index (texts : List (List UInt8)) (whole : Whole opt inputs t texts) : Begun opt inputs t texts

def rowOf (opt : Options) (inputs : Inputs) (t i : Nat) : CString :=
  cString (rowText opt i (inputs.draws t i))

/-- The rows so far are in the INSERTs sent and in the buffer. -/
def Filling (opt : Options) (inputs : Inputs) (t : Nat) (front : List (List UInt8))
    (rows : List CString) (con : BulkInsert.Connection) : Prop :=
  ∃ commitMax script buffered,
    Holds (cString (header opt t)) (front ++ [createText opt t]) commitMax con script buffered ∧
    rowsOf script ++ buffered = rows ∧ (buffered = [] → script = []) ∧
    ((inputs.answers t).describe = some true → commitMax ≠ 0)

theorem meets_asserted {before after : BulkInsert.Connection → Prop}
    {thrown : Thrown → BulkInsert.Connection → Prop}
    (call : BulkInsert.Connection → BulkInsert.Connection × Int)
    (done : ∀ con, before con → (call con).2 = 0 → after (call con).1)
    (failed : ∀ con, before con → (call con).2 ≠ 0 → thrown .assertion (call con).1) :
    Meets before (asserted call) (fun _ => after) thrown := by
  refine meets_read fun con start => meets_set_then _ ?_
  by_cases succeeded : (call con).2 = 0
  · rw [if_pos succeeded]
    refine meets_pure () ?_
    rintro _ rfl
    exact done con start succeeded
  · rw [if_neg succeeded]
    refine meets_throw Thrown.assertion ?_
    rintro _ rfl
    exact failed con start succeeded

theorem meets_query (text : List UInt8) (reply : QueryReply) :
    Meets (fun con => con.state ≠ .invalid ∧ con.sent = front) (query text reply)
      (fun _ con => con.state ≠ .invalid ∧ con.sent = front ++ [text])
      fun _ con => con.sent = front ++ [text] := by
  refine meets_read fun con start => meets_set_then _ ?_
  have sent := (db_query_sent con reply text start.1).1
  have stillOpen := (db_query_fails_iff con 0 reply text start.1).2
  rw [start.2] at sent
  split
  · refine meets_pure () ?_
    rintro _ rfl
    exact ⟨stillOpen, sent⟩
  · refine meets_throw Thrown.sql ?_
    rintro _ rfl
    exact sent

theorem rows_begun {script : List Statement} {passed rest : List Nat}
    (split : numericFor 1 opt.tableSize 1 = passed ++ rest) {con : BulkInsert.Connection}
    (sent : Sent (cString (header opt t)) (front ++ [createText opt t]) con script
      (passed.map (rowOf opt inputs t))) :
    ∃ part, Begun opt inputs t part ∧ con.sent = front ++ part := by
  refine ⟨_, .rows script sent.noEmpty ⟨rest.map fun i => rowText opt i (inputs.draws t i), ?_⟩, ?_⟩
  · have small : ∀ i ∈ passed, i ≤ 2 ^ 53 := by
      intro i member
      have inside := (mem_numeric_for Nat.one_pos i).mp (split ▸ List.mem_append_left rest member)
      have precise := opt.precise.2
      omega
    have texts : passed.map (CString.bytes ∘ rowOf opt inputs t) =
        passed.map fun i => rowText opt i (inputs.draws t i) :=
      List.map_congr_left fun i member => row_bytes opt (small i member) _
    rw [sent.rows, List.map_map, texts, rowTexts, split, List.map_append]
  · rw [sent.sent, List.append_assoc, List.singleton_append]

theorem meets_insert_row (table : t ≤ 2 ^ 53) {passed rest : List Nat} {i : Nat}
    (split : numericFor 1 opt.tableSize 1 = passed ++ i :: rest) :
    Meets (Filling opt inputs t front (passed.map (rowOf opt inputs t)))
      (insertRow opt inputs t i)
      (fun _ => Filling opt inputs t front ((passed ++ [i]).map (rowOf opt inputs t)))
      fun _ con => ∃ part, Begun opt inputs t part ∧ con.sent = front ++ part := by
  have row : i ≤ 2 ^ 53 := by
    have member : i ∈ numericFor 1 opt.tableSize 1 := by simp [split]
    have inside := (mem_numeric_for Nat.one_pos i).mp member
    have precise := opt.precise.2
    omega
  have fits := row_fits opt table row (inputs.draws t i)
  refine meets_asserted _ ?_ ?_
  · rintro con ⟨commitMax, script, buffered, holds, rows, none_, needed⟩ done
    obtain ⟨later, kept, after, all, some_⟩ := next_done holds _ fits _ done
    refine ⟨commitMax, later, kept, after, ?_, fun empty => absurd empty some_, needed⟩
    rw [all, rows, List.map_append]
    rfl
  · rintro con ⟨commitMax, script, buffered, holds, rows, none_, needed⟩ failed
    obtain ⟨all, sent⟩ := next_failed holds _ fits _ failed
    rw [rows] at sent
    exact rows_begun split sent

theorem meets_bulk_init :
    Meets (fun con => con.state ≠ .invalid ∧ con.sent = front ++ [createText opt t])
      (asserted fun con => dbBulkInsertInit con
        ⟨0, (inputs.answers t).describe, (inputs.answers t).malloced⟩ (cString (header opt t)))
      (fun _ => Filling opt inputs t front [])
      fun _ con => ∃ part, Begun opt inputs t part ∧ con.sent = front ++ part := by
  refine meets_asserted _ ?_ ?_
  · rintro con ⟨open_, sent⟩ done
    obtain ⟨needsCommit, described, holds⟩ := init_holds open_ (fun _ => rfl) (Prod.ext rfl done)
    rw [sent] at holds
    refine ⟨_, [], [], holds, rfl, fun _ => rfl, fun needed => ?_⟩
    obtain rfl := Option.some.inj (described.symm.trans needed)
    decide
  · rintro con ⟨open_, sent⟩ failed
    refine ⟨[createText opt t], .rows [] (by simp [NoEmptyInsert]) (List.nil_prefix), ?_⟩
    rw [← sent]
    unfold dbBulkInsertInit
    simp only [if_neg open_, freed_connection con open_]
    repeat' split
    all_goals rfl

theorem meets_bulk_done :
    Meets (Filling opt inputs t front ((numericFor 1 opt.tableSize 1).map (rowOf opt inputs t)))
      (asserted fun con => dbBulkInsertDone con (inputs.answers t).last.replies)
      (fun _ con => con.state ≠ .invalid ∧ ∃ script,
        Sent (cString (header opt t)) (front ++ [createText opt t]) con script
          ((numericFor 1 opt.tableSize 1).map (rowOf opt inputs t)) ∧
        ((inputs.answers t).describe = some true → Committed script))
      fun _ con => ∃ part, Begun opt inputs t part ∧ con.sent = front ++ part := by
  refine meets_asserted _ ?_ ?_
  · rintro con ⟨commitMax, script, buffered, holds, rows, none_, needed⟩ done
    obtain ⟨all, sent, committed⟩ := done_done holds _ done none_
    rw [rows] at sent
    exact ⟨done_open holds _, all, sent, fun due => committed (needed due)⟩
  · rintro con ⟨commitMax, script, buffered, holds, rows, none_, needed⟩ failed
    obtain ⟨all, sent⟩ := done_failed holds _ failed
    rw [rows] at sent
    exact rows_begun (List.append_nil _).symm sent

theorem whole_of_sent {script : List Statement} {con : BulkInsert.Connection}
    (sent : Sent (cString (header opt t)) (front ++ [createText opt t]) con script
      ((numericFor 1 opt.tableSize 1).map (rowOf opt inputs t)))
    (committed : (inputs.answers t).describe = some true → Committed script) :
    Whole opt inputs t (createText opt t ::
      script.map (Statement.text (cString (header opt t))) ++ indexTexts opt t) := by
  refine ⟨script, rfl, sent.noEmpty, ?_, committed⟩
  rw [sent.rows, List.map_map, rowTexts]
  refine List.map_congr_left fun i member => row_bytes opt ?_ _
  have inside := (mem_numeric_for Nat.one_pos i).mp member
  have precise := opt.precise.2
  omega

theorem meets_index {script : List Statement} {con : BulkInsert.Connection}
    (open_ : con.state ≠ .invalid)
    (sent : Sent (cString (header opt t)) (front ++ [createText opt t]) con script
      ((numericFor 1 opt.tableSize 1).map (rowOf opt inputs t)))
    (committed : (inputs.answers t).describe = some true → Committed script) :
    Meets (fun c => c = con)
      (if opt.createSecondary then query (indexText t) (inputs.answers t).index else pure ())
      (fun _ c => c.state ≠ .invalid ∧ ∃ part, Whole opt inputs t part ∧ c.sent = front ++ part)
      fun _ c => ∃ part, Begun opt inputs t part ∧ c.sent = front ++ part := by
  have whole := whole_of_sent sent committed
  have rows := sent.sent
  unfold indexTexts at whole
  by_cases secondary : opt.createSecondary = true
  · rw [if_pos secondary] at whole ⊢
    have added : ∀ c : BulkInsert.Connection, c.sent = con.sent ++ [indexText t] →
        c.sent = front ++ (createText opt t ::
          script.map (Statement.text (cString (header opt t))) ++ [indexText t]) := by
      intro c logged
      rw [logged, rows]
      simp
    refine meets_from (meets_weaken (meets_query (indexText t) (inputs.answers t).index)
      (fun _ start => start) ?_ ?_) ⟨open_, rfl⟩
    · exact fun _ c ⟨still, logged⟩ => ⟨still, _, whole, added c logged⟩
    · exact fun _ c logged => ⟨_, .index _ whole, added c logged⟩
  · rw [if_neg secondary] at whole ⊢
    refine meets_pure () ?_
    rintro _ rfl
    exact ⟨open_, _, whole, by simp [rows]⟩

/-- A table is made whole, or an error is thrown after what had begun. -/
theorem meets_create_table (table : t ≤ 2 ^ 53) (front : List (List UInt8)) :
    Meets (fun con => con.state ≠ .invalid ∧ con.sent = front) (createTable opt inputs t)
      (fun _ con => con.state ≠ .invalid ∧
        ∃ part, Whole opt inputs t part ∧ con.sent = front ++ part)
      fun _ con => ∃ part, Begun opt inputs t part ∧ con.sent = front ++ part := by
  unfold createTable
  split
  · rename_i other
    exact meets_throw Thrown.driver fun con start => ⟨[], .refused other, by simp [start.2]⟩
  have created : Meets (fun con => con.state ≠ .invalid ∧ con.sent = front)
      (query (createText opt t) (inputs.answers t).create)
      (fun _ con => con.state ≠ .invalid ∧ con.sent = front ++ [createText opt t])
      fun _ con => ∃ part, Begun opt inputs t part ∧ con.sent = front ++ part :=
    meets_weaken (meets_query _ _) (fun _ start => start) (fun _ _ ended => ended)
      fun _ con sent => ⟨_, .rows [] (by simp [NoEmptyInsert]) List.nil_prefix, sent⟩
  refine meets_bind created fun _ => meets_bind meets_bulk_init fun _ => ?_
  refine meets_bind (meets_for_each
    (fun passed => Filling opt inputs t front (passed.map (rowOf opt inputs t))) _ [] _ ?_) fun _ =>
      meets_bind meets_bulk_done fun _ => ?_
  · exact fun passed i rest split => meets_insert_row table split
  · refine meets_at fun con filled => ?_
    obtain ⟨open_, script, sent, committed⟩ := filled
    exact meets_index open_ sent committed
end Tables

/-! The command and its threads. -/
section Threads
variable (opt : Options) (creates : Nat → Bool) (inputs : Nat → Inputs)

/-- Whole tables for the thread's share, or for the first of them and a table begun behind,
or nothing by a thread without a connection. -/
def WorkedThrough (opt : Options) (inputs : Inputs) (tid : Nat) (sent : List (List UInt8)) :
    Prop :=
  Complete (Whole opt inputs) (share opt tid) sent ∨ sent = [] ∨
    BrokenOff (Whole opt inputs) (Begun opt inputs) (share opt tid) sent

theorem call_custom_command_worked (worker : Inputs) (tid : Nat) :
    WorkedThrough opt worker tid (callCustomCommand opt worker tid).1.sent ∧
      ((callCustomCommand opt worker tid).2 = 0 →
        Complete (Whole opt worker) (share opt tid) (callCustomCommand opt worker tid).1.sent) := by
  have body := meets_for_each_logged (fun con : BulkInsert.Connection => con.state ≠ .invalid)
    BulkInsert.Connection.sent (createTable opt worker) (share opt tid) (fun t member front => by
      have inside := ((mem_share opt t).mp member).2.1
      have precise := opt.precise.1
      exact meets_create_table (by omega) front) []
  have command : Meets (fun con => con.sent = []) (cmdPrepare opt worker tid)
      (fun _ con => Complete (Whole opt worker) (share opt tid) con.sent)
      fun _ con => con.sent = [] ∨
        BrokenOff (Whole opt worker) (Begun opt worker) (share opt tid) con.sent := by
    unfold cmdPrepare connect
    split
    · refine meets_modify_then _ fun con none_ => ?_
      have start : ({ con with state := .ready } : BulkInsert.Connection).state ≠ .invalid ∧
          con.sent = [] := ⟨by simp, none_⟩
      refine meets_weaken (meets_from body start) (fun _ same => same) ?_ ?_
      · rintro _ c ⟨_, entries, complete, ended⟩
        rw [ended]
        exact complete
      · rintro _ c ⟨entries, broken, ended⟩
        rw [ended]
        exact .inr broken
    · exact meets_bind (meets_throw Thrown.connection fun con none_ => .inl none_)
        fun _ => fun _ never => absurd never id
  unfold callCustomCommand
  split
  · exact ⟨.inr (.inl rfl), fun none_ => absurd (show (1 : Int) = 0 from none_) (by decide)⟩
  cases ended : cmdPrepare opt worker tid unconnected with
  | ok value con =>
      have complete := meets_ok command rfl ended
      exact ⟨.inl complete, fun _ => complete⟩
  | error thrown con =>
      exact ⟨.inr (meets_error command rfl ended),
        fun none_ => absurd (show (1 : Int) = 0 from none_) (by decide)⟩

theorem created_range (n : Nat) : ∃ made ≤ n, (List.range n).takeWhile creates = List.range made ∧
    (made = n ↔ ∀ tid < n, creates tid = true) := by
  have short := (List.takeWhile_sublist creates (l := List.range n)).length_le
  rw [List.length_range] at short
  have taken := List.prefix_iff_eq_take.mp (List.takeWhile_prefix creates (l := List.range n))
  rw [List.take_range, Nat.min_eq_left short] at taken
  refine ⟨_, short, taken, ?_⟩
  constructor
  · intro all tid inside
    rw [all] at taken
    exact List.takeWhile_eq_self_iff.mp taken tid (List.mem_range.mpr inside)
  · intro all
    have every : ∀ tid ∈ List.range n, creates tid = true :=
      fun tid member => all tid (List.mem_range.mp member)
    rw [List.takeWhile_eq_self_iff.mpr every, List.length_range]

theorem sessions_range : ∃ made ≤ opt.threads,
    (sbLuaCallCustomCommand opt creates inputs).1.map Prod.fst = List.range made ∧
    (1 < opt.threads → ((sbLuaCallCustomCommand opt creates inputs).2 = 0 ↔ made = opt.threads)) ∧
    (¬ 1 < opt.threads → made = opt.threads) := by
  obtain ⟨made, least, taken, _⟩ := created_range creates opt.threads
  have some_ := opt.some_
  unfold sbLuaCallCustomCommand
  by_cases parallel : 1 < opt.threads
  · rw [if_pos parallel, taken]
    refine ⟨made, least, by simp [Function.comp_def], fun _ => ?_, fun alone =>
      absurd parallel alone⟩
    simp
  · rw [if_neg parallel]
    exact ⟨1, some_, rfl, fun many => absurd many parallel, fun _ => by omega⟩

theorem session_worked {session : Nat × BulkInsert.Connection}
    (member : session ∈ (sbLuaCallCustomCommand opt creates inputs).1) :
    WorkedThrough opt (inputs session.1) session.1 session.2.sent := by
  unfold sbLuaCallCustomCommand at member
  split at member
  · obtain ⟨tid, _, rfl⟩ := List.mem_map.mp member
    unfold cmdWorkerThread
    split
    · exact (call_custom_command_worked opt (inputs tid) tid).1
    · exact .inr (.inl rfl)
  · obtain rfl := List.mem_singleton.mp member
    exact (call_custom_command_worked opt (inputs 0) 0).1

/-- Whatever the servers answer, no table is made twice, and every thread works through its
share in order and stops in a table at most. The exit code of several threads says only
that all could be created; if not, the process ends at once and cuts those that still run. -/
theorem prepare_worked :
    ((sbLuaCallCustomCommand opt creates inputs).1.flatMap fun session =>
      share opt session.1).Nodup ∧
    (∀ session ∈ (sbLuaCallCustomCommand opt creates inputs).1,
      WorkedThrough opt (inputs session.1) session.1 session.2.sent) ∧
    (1 < opt.threads → ((sbLuaCallCustomCommand opt creates inputs).2 = 0 ↔
      ∀ tid < opt.threads, creates tid = true)) := by
  obtain ⟨made, most, tids, code, _⟩ := sessions_range opt creates inputs
  refine ⟨?_, fun session => session_worked opt creates inputs, fun parallel => ?_⟩
  · have shares := shares_nodup opt (List.range made) List.nodup_range
      fun tid member => Nat.lt_of_lt_of_le (List.mem_range.mp member) most
    rwa [← tids, List.flatMap_map] at shares
  · obtain ⟨count, _, taken, all⟩ := created_range creates opt.threads
    rw [← all]
    unfold sbLuaCallCustomCommand
    rw [if_pos parallel, taken]
    simp

/-- When the command of every thread returns, the tables are all there, each of them whole
and by one thread. -/
theorem prepare_complete (succeeded : (sbLuaCallCustomCommand opt creates inputs).2 = 0)
    (returned : 1 < opt.threads → ∀ tid < opt.threads, (inputs tid).newState = true ∧
      (callCustomCommand opt (inputs tid) tid).2 = 0) :
    ((sbLuaCallCustomCommand opt creates inputs).1.flatMap fun session =>
      share opt session.1).Perm (numericFor 1 opt.tables 1) ∧
    ∀ session ∈ (sbLuaCallCustomCommand opt creates inputs).1,
      Complete (Whole opt (inputs session.1)) (share opt session.1) session.2.sent := by
  obtain ⟨made, most, tids, code, alone⟩ := sessions_range opt creates inputs
  have every : made = opt.threads := by
    by_cases parallel : 1 < opt.threads
    · exact (code parallel).mp succeeded
    · exact alone parallel
  refine ⟨?_, fun session member => ?_⟩
  · have shares := shares_perm opt
    rwa [← every, ← tids, List.flatMap_map] at shares
  · have inside : session.1 < opt.threads := by
      have present : session.1 ∈ List.range made := tids ▸ List.mem_map_of_mem member
      exact every ▸ List.mem_range.mp present
    unfold sbLuaCallCustomCommand at member succeeded
    split at member
    · rename_i parallel
      obtain ⟨tid, _, rfl⟩ := List.mem_map.mp member
      obtain ⟨state, done⟩ := returned parallel tid inside
      have whole := (call_custom_command_worked opt (inputs tid) tid).2 done
      unfold cmdWorkerThread
      rwa [if_pos state]
    · rename_i serial
      rw [if_neg serial] at succeeded
      obtain rfl := List.mem_singleton.mp member
      exact (call_custom_command_worked opt (inputs 0) 0).2 succeeded

/-- Three tables of two rows for two threads. -/
def threeTables : Options where
  threads := 2
  tables := 3
  tableSize := 2
  dbDriver := .pgsql
  autoInc := false
  secondary := false
  createSecondary := true
  createTableOptions := []
  mysqlStorageEngine := []
  some_ := by decide
  precise := by decide

def answered : Inputs where
  newState := true
  exported := true
  connected := true
  draws _ i := ⟨UInt32.ofNat i, fun _ => ⟨9, by decide⟩, fun _ => ⟨9, by decide⟩⟩
  answers _ :=
    { create := ⟨.none, .other⟩
      describe := some true
      malloced := some fun _ => 0
      next := fun _ => ⟨⟨.none, .write⟩, ⟨.none, .other⟩⟩
      last := ⟨⟨.none, .write⟩, ⟨.none, .other⟩⟩
      index := ⟨.none, .other⟩ }

theorem prepare_complete_three_tables :
    ((sbLuaCallCustomCommand threeTables (fun _ => true) fun _ => answered).1.flatMap
      fun session => share threeTables session.1).Perm [1, 2, 3] ∧
    ∀ session ∈ (sbLuaCallCustomCommand threeTables (fun _ => true) fun _ => answered).1,
      Complete (Whole threeTables answered) (share threeTables session.1) session.2.sent :=
  prepare_complete threeTables (fun _ => true) (fun _ => answered) rfl fun _ => by decide +kernel
end Threads
end PteSysbench.OltpTables
