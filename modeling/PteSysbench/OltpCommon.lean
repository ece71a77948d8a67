import PteSysbench.EmulatedStatements
import PteSysbench.ResultSets
import PteSysbench.SbRand
import PteSysbench.ThrowingScripts

/-!
oltp_common.lua with the benchmarks built on it, from `thread_init` to `thread_done`, and
`thread_run` of sysbench.lua around their `event`. Statements are those of the database
layer over drv_mysql.c. What the server answers and what is drawn at random are inputs.
-/

namespace PteSysbench.OltpCommon

open DbDriver EmulatedStatements ResultSets SbRand ThrowingScripts

/-! Statement definitions. -/
section Definitions

/-- The keys of `stmt_defs`. -/
inductive Key where
  | pointSelects
  | simpleRanges
  | sumRanges
  | orderRanges
  | distinctRanges
  | indexUpdates
  | nonIndexUpdates
  | deletes
  | inserts
  deriving DecidableEq

/-- A place in the Lua table `stmt`: `stmt.begin`, `stmt.commit` or `stmt[t][key]`. -/
inductive Place where
  | begin_
  | commit
  | table (t : Nat) (key : Key)
  deriving DecidableEq

inductive BindType where
  | int
  | char (maxLen : Nat)

/-- The text around the number of the table, and the types of the parameters. -/
structure StmtDef where
  before : String
  after : String
  types : List BindType

def stmtDefs : Key → StmtDef
  | .pointSelects => ⟨"SELECT c FROM sbtest", " WHERE id=?", [.int]⟩
  | .simpleRanges => ⟨"SELECT c FROM sbtest", " WHERE id BETWEEN ? AND ?", [.int, .int]⟩
  | .sumRanges => ⟨"SELECT SUM(k) FROM sbtest", " WHERE id BETWEEN ? AND ?", [.int, .int]⟩
  | .orderRanges =>
      ⟨"SELECT c FROM sbtest", " WHERE id BETWEEN ? AND ? ORDER BY c", [.int, .int]⟩
  | .distinctRanges =>
      ⟨"SELECT DISTINCT c FROM sbtest", " WHERE id BETWEEN ? AND ? ORDER BY c", [.int, .int]⟩
  | .indexUpdates => ⟨"UPDATE sbtest", " SET k=k+1 WHERE id=?", [.int]⟩
  | .nonIndexUpdates => ⟨"UPDATE sbtest", " SET c=? WHERE id=?", [.char 120, .int]⟩
  | .deletes => ⟨"DELETE FROM sbtest", " WHERE id=?", [.int]⟩
  | .inserts =>
      ⟨"INSERT INTO sbtest", " (id, k, c, pad) VALUES (?, ?, ?, ?)",
        [.int, .int, .char 120, .char 60]⟩

def ascii (text : String) : List UInt8 := text.toList.map fun c => UInt8.ofNat c.toNat

/-- What is passed to `con:prepare` for a place. -/
def textOf : Place → List UInt8
  | .begin_ => ascii "BEGIN"
  | .commit => ascii "COMMIT"
  | .table t key => ascii (stmtDefs key).before ++ decimal t ++ ascii (stmtDefs key).after

/-- Groups of eleven `#`, which `sb_rand_str` replaces by digits, with dashes between them. -/
def digitGroups (groups : Nat) : List UInt8 :=
  separated 45 (List.replicate groups (List.replicate 11 35))

def cValueTemplate : List UInt8 := digitGroups 10

def padValueTemplate : List UInt8 := digitGroups 5
end Definitions

/-! The state of a thread's scripts. -/
section State

/-- The benchmarks, one script each. -/
inductive Benchmark where
  | oltpDelete
  | oltpInsert
  | oltpPointSelect
  | oltpReadOnly
  | oltpReadWrite
  | oltpUpdateIndex
  | oltpUpdateNonIndex
  | oltpWriteOnly
  deriving DecidableEq

/-- The options of `sysbench.cmdline.options` that a run reads. The numbers are taken to be
whole, as all defaults are; sysbench.cmdline.lua passes on any double. -/
structure Options where
  rangeSize : Int
  tables : Int
  tableSize : Int
  pointSelects : Int
  simpleRanges : Int
  sumRanges : Int
  orderRanges : Int
  distinctRanges : Int
  indexUpdates : Int
  nonIndexUpdates : Int
  deleteInserts : Int
  rangeSelects : Bool
  autoInc : Bool
  skipTrx : Bool
  reconnect : Int

/-- `pairs` visits every key of a table once, in an order of its own. -/
structure KeyOrder where
  keys : List Key
  once : keys.Nodup
  every : ∀ key, key ∈ keys

/-- What stays the same in a run. `ignorable` is the hook `sql_error_ignorable` on error
numbers; where it is not set, nothing is ignorable. `pgsql` is `drv:name() == "pgsql"`. -/
structure Setting where
  args : DriverArgs
  benchmark : Benchmark
  ignorable : Nat → Bool
  order : KeyOrder
  pgsql : Bool

/-- `sql_errno` of the connection, and whether `sql_state` and `sql_errmsg` are set. -/
structure SqlError where
  errno : Nat
  described : Bool

/-- Random draws still to be made: raw words for `sysbench.rand.uniform`, results of
`sysbench.rand.default` and `sysbench.rand.unique`, and digits for the strings (the eleventh
is the ':' that a draw can round up to). -/
structure Draws where
  words : List UInt64
  ids : List UInt32
  uniques : List UInt32
  digits : List (Nat → Fin 11)

def Draws.word (draws : Draws) : UInt64 := draws.words.headD 0

def Draws.dropWord (draws : Draws) : Draws := { draws with words := draws.words.tail }

def Draws.id (draws : Draws) : UInt32 := draws.ids.headD 0

def Draws.dropId (draws : Draws) : Draws := { draws with ids := draws.ids.tail }

def Draws.unique (draws : Draws) : UInt32 := draws.uniques.headD 0

def Draws.dropUnique (draws : Draws) : Draws := { draws with uniques := draws.uniques.tail }

def Draws.digit (draws : Draws) : Nat → Fin 11 := draws.digits.headD fun _ => 0

def Draws.dropDigit (draws : Draws) : Draws := { draws with digits := draws.digits.tail }

/-- Answers still to be given to database calls, with the error found behind each. -/
structure Answers where
  prepares : List (PrepareReply × SqlError)
  executes : List (Bool × Reply × SqlError)
  reconnects : List Bool

/-- What an execution sends for a parameter. -/
inductive Value where
  | null
  | int (value : Int64)
  | double (bits : UInt64)
  | text (bytes : List UInt8)
  deriving DecidableEq

/-- What is handed to `db_execute`, or to `db_query` with no values. -/
structure Request where
  text : List UInt8
  values : List Value
  deriving DecidableEq

/-- Statements and parameter sets go by the number of the statement. `sent` collects the
requests of an attempt. -/
structure World where
  opt : Options
  con : ResultSets.Connection
  error : SqlError
  stmt : Place → Option Nat
  param : Place → Option Nat
  texts : Nat → List UInt8
  buffers : Nat → List Param
  transactions : Nat
  draws : Draws
  answers : Answers
  sent : List Request

/-- A 'restart event' error with its error number, any other error, or no error at all:
a statement that has been freed is read, or the driver's data of a connection that was
never made. -/
inductive Thrown where
  | restart (errno : Nat)
  | other
  | dangling
  | nullRead
  deriving DecidableEq

abbrev Lua (Result : Type) := Script World Thrown Result

/-- `for t = 1, sysbench.opt.tables`. -/
def tableNumbers (opt : Options) : List Nat := (List.range opt.tables.toNat).map (· + 1)
end State

/-! sysbench.sql.lua over db_driver.c. -/
section SqlApi

/-- `check_error`. With a result `rs` the connection's error is `NONE`. -/
def checkError (cfg : Setting) : Lua Unit := do
  let w ← get
  if w.con.error = .none then pure ()
  else if ¬w.error.described then throw .other
  else if w.con.error = .ignorable ∨ cfg.ignorable w.error.errno then throw (.restart w.error.errno)
  else throw .other

def nextPrepare : Lua (PrepareReply × SqlError) :=
  modifyGet fun w => (w.answers.prepares.headD (.prepared, ⟨0, false⟩),
    { w with answers := { w.answers with prepares := w.answers.prepares.tail } })

def nextExecute : Lua (Bool × Reply × SqlError) :=
  modifyGet fun w => (w.answers.executes.headD (true, .noRows true, ⟨0, false⟩),
    { w with answers := { w.answers with executes := w.answers.executes.tail } })

def nextReconnect : Lua Bool :=
  modifyGet fun w => (w.answers.reconnects.headD true,
    { w with answers := { w.answers with reconnects := w.answers.reconnects.tail } })

/-- `con:prepare`. A connection that is not open leaves the error as it was. -/
def prepare (cfg : Setting) (text : List UInt8) : Lua (Option Nat) := do
  let (reply, error) ← nextPrepare
  let w ← get
  let con := dbPrepare cfg.args w.con reply
  if w.con.state = .invalid then
    checkError cfg
    pure none
  else if w.con.prepared < con.prepared then
    set { w with con := con, texts := Function.update w.texts w.con.prepared text }
    pure (some w.con.prepared)
  else
    set { w with con := con, error := error }
    checkError cfg
    pure none

def bindCreate : BindType → Param
  | .int => .bigint 0 false
  | .char maxLen => .varchar (EmulatedStatements.bindCreate maxLen)

/-- `stmt:bind_param` with parameters just created. -/
def bindParam (id : Nat) (params : List Param) : Lua Unit := do
  let w ← get
  match openStatement w.con id with
  | none => throw .dangling
  | some _ => set { w with buffers := Function.update w.buffers id params }

/-- The bytes up to `data_len`. -/
def sentOf : Param → Value
  | .bigint value isNull => if isNull then .null else .int value
  | .double bits isNull => if isNull then .null else .double bits
  | .char param | .varchar param =>
      if param.isNull then .null else .text (param.buffer.take param.dataLen)

/-- `stmt:execute`. -/
def execute (cfg : Setting) (place : Place) : Lua Unit := do
  let (buffer, reply, error) ← nextExecute
  let w ← get
  match w.stmt place with
  | none => throw .other
  | some id =>
      match openStatement w.con id with
      | none => throw .dangling
      | some stmt =>
          if w.con.state = .invalid then checkError cfg
          else
            let request := Request.mk (w.texts id) ((w.buffers id).map sentOf)
            let con := dbExecute cfg.args w.con id stmt buffer reply
            set { w with con := con, error := error, sent := w.sent ++ [request] }
            checkError cfg

/-- `con:query`. -/
def query (cfg : Setting) (text : List UInt8) : Lua Unit := do
  let (_, reply, error) ← nextExecute
  let w ← get
  if w.con.state = .invalid then
    set { w with con := { w.con with error := .fatal }, error := error }
    checkError cfg
  else
    let con := dbQuery cfg.args w.con reply
    set { w with con := con, error := error, sent := w.sent ++ [Request.mk text []] }
    checkError cfg

/-- `stmt:close`. -/
def close (cfg : Setting) (id : Nat) : Lua Unit := do
  let w ← get
  match openStatement w.con id with
  | none => throw .dangling
  | some stmt =>
      if w.con.state = .invalid then pure ()
      else set { w with con := dbClose cfg.args w.con id stmt }

/-- `con:reconnect`. The driver leaves no result set and, on success, a fresh connection. Of
the driver's functions this one alone does not ask for a dry run, in which no connection has
any data. -/
def reconnect (cfg : Setting) : Lua Unit := do
  let succeeds ← nextReconnect
  let w ← get
  if w.con.state = .invalid then pure ()
  else if cfg.args.dryRun then throw .nullRead
  else if succeeds then set { w with con := { freedFirst cfg.args w.con with state := .ready } }
  else
    set { w with con := { freedFirst cfg.args w.con with state := .invalid } }
    throw .other

/-- `con:disconnect`. -/
def disconnect (cfg : Setting) : Lua Unit :=
  modify fun w =>
    if w.con.state = .invalid then w
    else { w with con := { freedFirst cfg.args w.con with state := .invalid } }
end SqlApi

/-! Functions of oltp_common.lua. -/
section Common

def setStmt (place : Place) (made : Option Nat) : Lua Unit :=
  modify fun w => { w with stmt := Function.update w.stmt place made }

def prepareBegin (cfg : Setting) : Lua Unit := do
  let made ← prepare cfg (textOf .begin_)
  setStmt .begin_ made

def prepareCommit (cfg : Setting) : Lua Unit := do
  let made ← prepare cfg (textOf .commit)
  setStmt .commit made

/-- One turn of the loop of `prepare_for_each_table`. -/
def prepareForTable (cfg : Setting) (key : Key) (t : Nat) : Lua Unit := do
  let made ← prepare cfg (textOf (.table t key))
  setStmt (.table t key) made
  match made with
  | none => throw .other
  | some id =>
      modify fun w => { w with param := Function.update w.param (.table t key) (some id) }
      bindParam id ((stmtDefs key).types.map bindCreate)

def prepareForEachTable (cfg : Setting) (key : Key) : Lua Unit := do
  let w ← get
  (tableNumbers w.opt).forM (prepareForTable cfg key)

/-- `prepare_delete_inserts` and the other functions that prepare one key or two. -/
def prepareKeys (cfg : Setting) (keys : List Key) : Lua Unit :=
  keys.forM (prepareForEachTable cfg)

def prepareTransaction (cfg : Setting) : Lua Unit := do
  let w ← get
  if w.opt.skipTrx then pure ()
  else
    prepareBegin cfg
    prepareCommit cfg

def rangeKeys : List Key := [.simpleRanges, .sumRanges, .orderRanges, .distinctRanges]

def writeKeys : List Key := [.indexUpdates, .nonIndexUpdates, .deletes, .inserts]

def prepareRanges (cfg : Setting) : Lua Unit := do
  let w ← get
  if w.opt.rangeSelects then prepareKeys cfg rangeKeys else pure ()

/-- The callback `prepare_statements` of each benchmark. -/
def prepareStatements (cfg : Setting) : Lua Unit :=
  match cfg.benchmark with
  | .oltpDelete => prepareKeys cfg [.deletes]
  | .oltpInsert => pure ()
  | .oltpPointSelect => do
      modify fun w => { w with opt := { w.opt with pointSelects := 1 } }
      prepareKeys cfg [.pointSelects]
  | .oltpReadOnly => do
      prepareKeys cfg [.pointSelects]
      prepareTransaction cfg
      prepareRanges cfg
  | .oltpReadWrite => do
      prepareTransaction cfg
      prepareKeys cfg [.pointSelects]
      prepareRanges cfg
      prepareKeys cfg writeKeys
  | .oltpUpdateIndex => prepareKeys cfg [.indexUpdates]
  | .oltpUpdateNonIndex => prepareKeys cfg [.nonIndexUpdates]
  | .oltpWriteOnly => do
      prepareTransaction cfg
      prepareKeys cfg writeKeys

def threadInit (cfg : Setting) : Lua Unit := do
  modify fun w => { w with stmt := fun _ => none, param := fun _ => none }
  prepareStatements cfg

/-- The order in which `close_statements` looks at the table `stmt`. -/
def closingOrder (cfg : Setting) (opt : Options) : List Place :=
  ((tableNumbers opt).flatMap fun t => cfg.order.keys.map (Place.table t)) ++ [.begin_, .commit]

def closePlace (cfg : Setting) (place : Place) : Lua Unit := do
  let w ← get
  match w.stmt place with
  | none => pure ()
  | some id => close cfg id

def closeStatements (cfg : Setting) : Lua Unit := do
  let w ← get
  (closingOrder cfg w.opt).forM (closePlace cfg)

def threadDone (cfg : Setting) : Lua Unit := do
  closeStatements cfg
  disconnect cfg

/-- CR_SERVER_LOST, CR_SERVER_LOST_EXTENDED, CR_SERVER_GONE_ERROR and CR_TCP_CONNECTION. -/
def lostErrors : List Nat := [2013, 2055, 2006, 2011]

/-- The hook `before_restart_event`. -/
def beforeRestartEvent (cfg : Setting) (errno : Nat) : Lua Unit :=
  if errno ∈ lostErrors then do
    closeStatements cfg
    prepareStatements cfg
  else pure ()

def checkReconnect (cfg : Setting) : Lua Unit := do
  let w ← get
  if 0 < w.opt.reconnect then
    set { w with transactions := w.transactions + 1 }
    if (w.transactions + 1 : Int) % w.opt.reconnect = 0 then
      closeStatements cfg
      reconnect cfg
      prepareStatements cfg
    else pure ()
  else pure ()
end Common

/-! The events. -/
section Events

def drawWord : Lua UInt64 :=
  modifyGet fun w => (w.draws.word, { w with draws := w.draws.dropWord })

def drawUnique : Lua UInt32 :=
  modifyGet fun w => (w.draws.unique, { w with draws := w.draws.dropUnique })

def drawDigits : Lua (Nat → Fin 11) :=
  modifyGet fun w => (w.draws.digit, { w with draws := w.draws.dropDigit })

def getId : Lua UInt32 :=
  modifyGet fun w => (w.draws.id, { w with draws := w.draws.dropId })

/-- An option passed as a `uint32_t`. -/
def uint32 (value : Int) : Nat := (value % 2 ^ 32).toNat

def getTableNum : Lua Nat := do
  let x ← drawWord
  let w ← get
  pure (sbRandUniformRounded x 1 (uint32 w.opt.tables))

/-- The templates hold no `@`, so no letters are drawn. -/
def fill (digits : Nat → Fin 11) (template : List UInt8) : List UInt8 :=
  sbRandStr digits (fun _ => 0) template

/-- A method of `param[t][key][i]`, counted from 0 here. -/
def setParam (place : Place) (i : Nat) (update : Param → Param) : Lua Unit := do
  let w ← get
  match w.param place with
  | none => throw .other
  | some id =>
      if i < (w.buffers id).length then
        set { w with buffers := Function.update w.buffers id ((w.buffers id).modify i update) }
      else throw .other

/-- `set` of a number. None of the parameters is a double, so its bits do not matter. -/
def setNumber (place : Place) (i : Nat) (value : Int) : Lua Unit :=
  setParam place i fun param => param.set (.number (Int64.ofInt value) 0)

def setRandStr (place : Place) (i : Nat) (template : List UInt8) : Lua Unit := do
  let digits ← drawDigits
  setParam place i (Param.setRandStr digits (fun _ => 0) template)

/-- The loop of an `execute_` function over one table drawn at random. -/
def onRandomTable (count : Options → Int) (turn : Nat → Lua Unit) : Lua Unit := do
  let tnum ← getTableNum
  let w ← get
  times (count w.opt).toNat (turn tnum)

/-- A turn of `execute_point_selects` or `execute_index_updates`. -/
def executeById (cfg : Setting) (key : Key) (tnum : Nat) : Lua Unit := do
  let id ← getId
  setNumber (.table tnum key) 0 id.toNat
  execute cfg (.table tnum key)

def executePointSelects (cfg : Setting) : Lua Unit :=
  onRandomTable Options.pointSelects (executeById cfg .pointSelects)

/-- `sysbench.opt[key]` of the keys that `execute_range` is called with. -/
def rangeCount (key : Key) (opt : Options) : Int :=
  match key with
  | .sumRanges => opt.sumRanges
  | .orderRanges => opt.orderRanges
  | .distinctRanges => opt.distinctRanges
  | _ => opt.simpleRanges

def rangeTurn (cfg : Setting) (key : Key) (tnum : Nat) : Lua Unit := do
  let id ← getId
  let w ← get
  setNumber (.table tnum key) 0 id.toNat
  setNumber (.table tnum key) 1 (id.toNat + w.opt.rangeSize - 1)
  execute cfg (.table tnum key)

def executeRange (cfg : Setting) (key : Key) : Lua Unit :=
  onRandomTable (rangeCount key) (rangeTurn cfg key)

def executeIndexUpdates (cfg : Setting) : Lua Unit :=
  onRandomTable Options.indexUpdates (executeById cfg .indexUpdates)

def nonIndexTurn (cfg : Setting) (tnum : Nat) : Lua Unit := do
  setRandStr (.table tnum .nonIndexUpdates) 0 cValueTemplate
  let id ← getId
  setNumber (.table tnum .nonIndexUpdates) 1 id.toNat
  execute cfg (.table tnum .nonIndexUpdates)

def executeNonIndexUpdates (cfg : Setting) : Lua Unit :=
  onRandomTable Options.nonIndexUpdates (nonIndexTurn cfg)

def deleteInsertTurn (cfg : Setting) (tnum : Nat) : Lua Unit := do
  let id ← getId
  let k ← getId
  setNumber (.table tnum .deletes) 0 id.toNat
  setNumber (.table tnum .inserts) 0 id.toNat
  setNumber (.table tnum .inserts) 1 k.toNat
  setRandStr (.table tnum .inserts) 2 cValueTemplate
  setRandStr (.table tnum .inserts) 3 padValueTemplate
  execute cfg (.table tnum .deletes)
  execute cfg (.table tnum .inserts)

def executeDeleteInserts (cfg : Setting) : Lua Unit :=
  onRandomTable Options.deleteInserts (deleteInsertTurn cfg)

def executeRanges (cfg : Setting) : Lua Unit := do
  let w ← get
  if w.opt.rangeSelects then rangeKeys.forM (executeRange cfg) else pure ()

def executeWrites (cfg : Setting) : Lua Unit := do
  executeIndexUpdates cfg
  executeNonIndexUpdates cfg
  executeDeleteInserts cfg

/-- `begin()`, unless `skip_trx` is on. -/
def begin_ (cfg : Setting) : Lua Unit := do
  let w ← get
  if w.opt.skipTrx then pure () else execute cfg .begin_

def commit (cfg : Setting) : Lua Unit := do
  let w ← get
  if w.opt.skipTrx then pure () else execute cfg .commit

/-- The text that the event of oltp_insert.lua builds. -/
def insertText (tnum : Nat) (id : Option Int) (k : UInt32) (c pad : List UInt8) : List UInt8 :=
  let columns := if id.isSome then " (id, k, c, pad) VALUES (" else " (k, c, pad) VALUES ("
  let values := id.toList.map decimal ++ [decimal k.toNat, quoted c, quoted pad]
  ascii "INSERT INTO sbtest" ++ decimal tnum ++ ascii columns ++
    (ascii ", ").intercalate values ++ ascii ")"

/-- With `auto_inc` the server numbers the rows: no id for PostgreSQL, 0 for MySQL. -/
def insertEvent (cfg : Setting) : Lua Unit := do
  let tnum ← getTableNum
  let k ← getId
  let c ← drawDigits
  let pad ← drawDigits
  let w ← get
  if w.opt.autoInc then
    query cfg (insertText tnum (if cfg.pgsql then none else some 0) k (fill c cValueTemplate)
      (fill pad padValueTemplate))
  else
    let unique ← drawUnique
    query cfg (insertText tnum (some (unique.toNat - 2147483648)) k (fill c cValueTemplate)
      (fill pad padValueTemplate))

def deleteEvent (cfg : Setting) : Lua Unit := do
  let tnum ← getTableNum
  executeById cfg .deletes tnum

/-- `event` of each benchmark up to `check_reconnect`. -/
def requests (cfg : Setting) : Lua Unit :=
  match cfg.benchmark with
  | .oltpDelete => deleteEvent cfg
  | .oltpInsert => insertEvent cfg
  | .oltpPointSelect => executePointSelects cfg
  | .oltpReadOnly => do
      begin_ cfg
      executePointSelects cfg
      executeRanges cfg
      commit cfg
  | .oltpReadWrite => do
      begin_ cfg
      executePointSelects cfg
      executeRanges cfg
      executeWrites cfg
      commit cfg
  | .oltpUpdateIndex => executeIndexUpdates cfg
  | .oltpUpdateNonIndex => executeNonIndexUpdates cfg
  | .oltpWriteOnly => do
      begin_ cfg
      executeWrites cfg
      commit cfg

def event (cfg : Setting) : Lua Unit := do
  requests cfg
  checkReconnect cfg
end Events

/-! The thread. -/
section Thread

/-- Where the thread is: before `thread_init`, at the head of the loop of `thread_run`,
within an event, behind `thread_done`, behind an error that ends it, behind a use of a freed
statement, or behind a read through a null pointer. -/
inductive Phase where
  | created
  | between
  | inEvent
  | done
  | failed
  | dangling
  | crashed
  deriving DecidableEq

/-- One call of `event`: the draws it started with, what it sent, and whether it returned. -/
structure Attempt where
  draws : Draws
  sent : List Request
  returned : Bool

structure Thread where
  phase : Phase
  world : World
  attempts : List Attempt
  /-- Calls of `sb_event_start` and of `sb_event_stop`. -/
  started : Nat
  stopped : Nat

/-- The next answers of the server, and for the loop what `sb_more_events` returns and what
an event draws. -/
inductive Action where
  | init (answers : Answers)
  | more
  | noMore (answers : Answers)
  | attempt (answers : Answers) (draws : Draws)

def failedPhase : Thrown → Phase
  | .dangling => .dangling
  | .nullRead => .crashed
  | _ => .failed

/-- A script run on the thread's state, with the phase behind it. -/
def Thread.run (s : Thread) (phase : Phase) (script : Lua Unit) (answers : Answers) : Thread :=
  match script { s.world with answers := answers } with
  | .ok _ world => { s with phase := phase, world := world }
  | .error thrown world => { s with phase := failedPhase thrown, world := world }

/-- One turn of the inner loop of `thread_run`. No event of these benchmarks returns a
value. -/
def attemptStep (cfg : Setting) (s : Thread) (answers : Answers) (draws : Draws) : Thread :=
  match event cfg { s.world with answers := answers, draws := draws, sent := [] } with
  | .ok _ world =>
      { s with
        phase := .between
        world := world
        attempts := s.attempts ++ [{ draws := draws, sent := world.sent, returned := true }]
        stopped := s.stopped + 1 }
  | .error thrown world =>
      let attempts := s.attempts ++ [{ draws := draws, sent := world.sent, returned := false }]
      match thrown with
      | .restart errno =>
          { s with world := world, attempts := attempts }.run .inEvent
            (beforeRestartEvent cfg errno) world.answers
      | thrown => { s with phase := failedPhase thrown, world := world, attempts := attempts }

/-- The worker calls `thread_done` only when `thread_run` has ended without an error. -/
def step (cfg : Setting) (s : Thread) : Action → Option Thread
  | .init answers =>
      if s.phase = .created then some (s.run .between (threadInit cfg) answers) else none
  | .more =>
      if s.phase = .between then some { s with phase := .inEvent, started := s.started + 1 }
      else none
  | .noMore answers =>
      if s.phase = .between then some (s.run .done (threadDone cfg) answers) else none
  | .attempt answers draws =>
      if s.phase = .inEvent then some (attemptStep cfg s answers draws) else none

/-- A thread whose script has just connected. -/
def created (opt : Options) : Thread where
  phase := .created
  world :=
    { opt := opt, con := connected, error := ⟨0, false⟩, stmt := fun _ => none
      param := fun _ => none, texts := fun _ => [], buffers := fun _ => [], transactions := 0
      draws := ⟨[], [], [], []⟩, answers := ⟨[], [], []⟩, sent := [] }
  attempts := []
  started := 0
  stopped := 0
end Thread
end PteSysbench.OltpCommon
