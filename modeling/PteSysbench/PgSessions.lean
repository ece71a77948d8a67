import PteSysbench.ActionSystem
import PteSysbench.DbDriver
import PteSysbench.ThrowingScripts
import Mathlib.Logic.Function.Basic

/-!
A connection of the PostgreSQL driver: the handles of libpq that drv_pgsql.c makes, reads
and frees under the calls of db_driver.c. The server's answers are inputs, a use of memory
that the C code must not make ends the run. Allocations succeed, and the texts that are built
stay below 2^30 bytes. Connections, results and statements are numbered in the order they are
made.
-/

namespace PteSysbench.PgSessions

open ActionSystem DbDriver ThrowingScripts

/-! The state of a connection. -/
section State

/-- The states that `pgsql_check_status` compares with, and all others. -/
inductive SqlState where
  | deadlockDetected
  | uniqueViolation
  | serializationFailure
  | other
  deriving DecidableEq

/-- The status of a result with the fields read of it. An error that libpq reports for
itself, such as a lost connection, has no SQL state. -/
inductive Reply where
  | tuplesOk (ntuples nfields : Nat)
  | commandOk (affected : Nat)
  | fatalError (sqlState : Option SqlState) (message : Bool)
  | other

/-- The types of parameters that the conversions tell apart: DB_TYPE_CHAR and
DB_TYPE_VARCHAR, and all others. -/
inductive BindType where
  | string
  | other
  deriving DecidableEq

/-- What `is_null` and `data_len` of a bound parameter point to when it is executed, and
whether there is a NUL byte in its buffer. The buffer holds `dataLen` bytes at least. -/
structure Contents where
  isNull : Bool
  dataLen : Nat
  terminated : Bool

/-- A statement and its text, up to the terminator; `handle` is `stmt->ptr`, `bound` the types
in `bound_param`. -/
structure Stmt where
  emulated : Bool
  text : List UInt8
  handle : Bool
  prepared : Bool
  bound : Option (List BindType)
  pvalues : Bool
  closed : Bool
  deriving DecidableEq

/-- The question marks of a text. -/
def questionMarks (text : List UInt8) : Nat := text.count 63

def Stmt.marks (stmt : Stmt) : Nat := questionMarks stmt.text

/-- `con->rs`; `row` is `row.ptr`, `values` the length of `row.values`. -/
structure ResultSet where
  counter : Counter
  nrows : Nat
  nfields : Nat
  ptr : Option Nat
  row : Nat
  values : Option Nat

structure Session where
  state : ConnState
  error : DbError
  rs : ResultSet
  /-- The PGconn in `con->ptr`. -/
  conn : Nat
  conns : Nat
  finished : Nat → Bool
  results : Nat
  /-- Rows and fields of a result. -/
  shape : Nat → Nat × Nat
  cleared : Nat → Bool
  stmts : Nat → Option Stmt
  prepared : Nat
  /-- History: what `db_fetch_row` returned for each result, NULL or the number of a row. -/
  fetched : Nat → List (Option Nat)

/-- PQclear or a read of a cleared result, a use of a finished connection, `strdup` of a
null pointer, a read through any other, an index outside an array. -/
inductive Fault where
  | cleared
  | finished
  | nullString
  | nullPointer
  | outside
  deriving DecidableEq

abbrev Driver (Value : Type) := Script Session Fault Value
end State

/-! The driver. -/
section Operations

def useConn : Driver Unit := do
  let s ← get
  if s.finished s.conn then throw .finished else pure ()

def shapeOf : Reply → Nat × Nat
  | .tuplesOk ntuples nfields => (ntuples, nfields)
  | _ => (0, 0)

/-- PQexec, PQexecPrepared and PQprepare, with the number of the result. -/
def pqExec (reply : Reply) : Driver Nat := do
  useConn
  modifyGet fun s => (s.results, { s with
    results := s.results + 1
    shape := Function.update s.shape s.results (shapeOf reply) })

def pqClear (id : Nat) : Driver Unit := do
  let s ← get
  if s.cleared id then throw .cleared
  else set { s with cleared := Function.update s.cleared id true }

def setCounter (nrows : Nat) (counter : Counter) : Driver Unit :=
  modify fun s => { s with rs := { s.rs with nrows := nrows, counter := counter } }

def pgsqlCheckStatus (id : Nat) : Reply → Driver DbError
  | .tuplesOk ntuples nfields => do
      setCounter ntuples .read
      modify fun s => { s with rs := { s.rs with nfields := nfields } }
      pure .none
  | .commandOk affected => do
      setCounter affected (if 0 < affected then .write else .other)
      pqClear id
      pure .none
  | .fatalError sqlState message => do
      setCounter 0 .error
      match sqlState, message with
      | some .other, true =>
          pqClear id
          pure .fatal
      | some _, true =>
          let tmp ← pqExec .other
          pqClear tmp
          pqClear id
          pure .ignorable
      | _, _ => throw .nullString
  | .other => do
      setCounter 0 .error
      pure .fatal

/-- The end of `pgsql_drv_query` and of `pgsql_drv_execute`. -/
def pgsqlDrvQuery (reply : Reply) : Driver DbError := do
  let id ← pqExec reply
  let error ← pgsqlCheckStatus id reply
  modify fun s => { s with
    rs := { s.rs with ptr := if s.rs.counter = .read then some id else none } }
  pure error

def maxParamLength : Nat := 256

/-- A bound parameter's value on its way into `pvalues` or into the text. The terminator of a
string is stored at `data_len`; the emulation prints up to a NUL byte. -/
def putValue (stmt : Stmt) (type : BindType) (contents : Contents) : Driver Unit :=
  if contents.isNull then pure ()
  else if stmt.emulated then
    if type = .string ∧ contents.terminated = false then throw .outside else pure ()
  else if stmt.pvalues = false then throw .nullPointer
  else if type = .string ∧ maxParamLength ≤ contents.dataLen then throw .outside
  else pure ()

/-- The i-th turn of the conversion of parameters, or of the emulation at a question mark. -/
def useParam (stmt : Stmt) (contents : Nat → Contents) (i : Nat) : Driver Unit :=
  match stmt.bound with
  | none => throw .nullPointer
  | some types =>
      match types[i]? with
      | none => throw .outside
      | some type => putValue stmt type (contents i)

/-- The emulation has a buffer only from the first character of the text on. -/
def pgsqlDrvExecute (stmt : Stmt) (contents : Nat → Contents) (reply : Reply) : Driver DbError :=
  if stmt.emulated = false ∧ stmt.handle = false then pure .fatal
  else do
    (List.range stmt.marks).forM (useParam stmt contents)
    if stmt.emulated ∧ stmt.text = [] then throw .nullPointer else pgsqlDrvQuery reply

/-- With parameters the statement is prepared by the first `bind_param`. The text that is sent
has a buffer only from its first character on. -/
def pgsqlDrvPrepare (usePs : Bool) (text : List UInt8) (reply : Reply) : Driver (Option Stmt) :=
  if usePs = false then pure (some ⟨true, text, false, false, none, false, false⟩)
  else if text = [] then throw .nullPointer
  else if 0 < questionMarks text then pure (some ⟨false, text, true, false, none, false, false⟩)
  else do
    let id ← pqExec reply
    pqClear id
    match reply with
    | .commandOk _ => pure (some ⟨false, text, true, true, none, false, false⟩)
    | _ => pure none

def setStmt (id : Nat) (stmt : Stmt) : Driver Unit :=
  modify fun s => { s with stmts := Function.update s.stmts id (some stmt) }

def pgsqlDrvBindParam (id : Nat) (stmt : Stmt) (types : List BindType) (reply : Reply) :
    Driver Int := do
  setStmt id { stmt with bound := some types }
  if stmt.emulated then pure 0
  else if stmt.handle = false then throw .nullPointer
  else if stmt.prepared then pure 0
  else if stmt.marks ≠ types.length then pure 1
  else
    let result ← pqExec reply
    match reply with
    | .commandOk _ =>
        pqClear result
        setStmt id { stmt with bound := some types, pvalues := true, prepared := true }
        pure 0
    -- The result of a failing PQprepare is left as it is.
    | _ => pure 1

/-- PQgetisnull, PQgetlength and PQgetvalue with the store into `row->values[i]`. -/
def readField (i : Nat) : Driver Unit := do
  let s ← get
  match s.rs.ptr, s.rs.values with
  | some id, some size =>
      if s.cleared id then throw .cleared
      else if (s.shape id).1 ≤ s.rs.row ∨ (s.shape id).2 ≤ i ∨ size ≤ i then throw .outside
      else pure ()
  | _, _ => throw .nullPointer

def pgsqlDrvFetchRow : Driver (Option Nat) := do
  let s ← get
  if s.rs.nrows ≤ s.rs.row then pure none
  else
    (List.range s.rs.nfields).forM readField
    modify fun t => { t with rs := { t.rs with row := t.rs.row + 1 } }
    pure (some s.rs.row)

def pgsqlDrvFreeResults : Driver Int := do
  let s ← get
  match s.rs.ptr with
  | none => pure 1
  | some id =>
      pqClear id
      modify fun t => { t with rs := { t.rs with ptr := none, row := 0 } }
      pure 0

def pgsqlDrvDisconnect : Driver Unit := do
  useConn
  modify fun s => { s with finished := Function.update s.finished s.conn true }

/-- It connects after any number of attempts, or gives up when an error is set; a failed
attempt leaves `con->ptr` as it was. -/
def pgsqlDrvReconnect (connects : Bool) : Driver DbError := do
  pgsqlDrvDisconnect
  if connects then
    modify fun s => { s with conn := s.conns, conns := s.conns + 1 }
    pure .ignorable
  else pure .fatal
end Operations

/-! db_driver.c over it. -/
section Calls

def dbFreeResultsInt : Driver Int := do
  let rc ← pgsqlDrvFreeResults
  modify fun s => { s with
    rs := { s.rs with values := none, nrows := 0, nfields := 0 }, state := .ready }
  pure rc

/-- What calls do first with a result set that is open. -/
def freeOpen : Driver Int := do
  let s ← get
  if s.state = .resultSet then dbFreeResultsInt else pure 0

def setError (error : DbError) : Driver Unit := modify fun s => { s with error := error }

/-- The end of `db_execute` and `db_query`. -/
def finish (error : DbError) : Driver Unit :=
  modify fun s => { s with
    error := error
    state :=
      if error = .none then (if s.rs.counter = .read then .resultSet else .ready) else s.state }

def dbQuery (reply : Reply) : Driver Unit := do
  let s ← get
  if s.state = .invalid then setError .fatal
  else
    let rc ← freeOpen
    if rc ≠ 0 then setError .fatal
    else
      let error ← pgsqlDrvQuery reply
      finish error

def dbExecute (stmt : Stmt) (contents : Nat → Contents) (reply : Reply) : Driver Unit := do
  let s ← get
  if s.state = .invalid then pure ()
  else
    let rc ← freeOpen
    if rc ≠ 0 then pure ()
    else
      let error ← pgsqlDrvExecute stmt contents reply
      finish error

def dbPrepare (usePs : Bool) (text : List UInt8) (reply : Reply) : Driver Unit := do
  let s ← get
  if s.state = .invalid then pure ()
  else
    let made ← pgsqlDrvPrepare usePs text reply
    match made with
    | none => setError .fatal
    | some stmt =>
        setStmt s.prepared stmt
        modify fun t => { t with prepared := t.prepared + 1 }

def dbBindParam (id : Nat) (stmt : Stmt) (types : List BindType) (reply : Reply) :
    Driver Int := do
  let s ← get
  if s.state = .invalid then pure 1 else pgsqlDrvBindParam id stmt types reply

/-- `malloc` of `row.values` succeeds. -/
def dbFetchRow : Driver (Option Nat) := do
  let s ← get
  if s.state ≠ .resultSet then pure none
  else if s.rs.nrows = 0 ∨ s.rs.nfields = 0 then pure none
  else
    modify fun t => { t with rs := { t.rs with values := some (t.rs.values.getD t.rs.nfields) } }
    pgsqlDrvFetchRow

def dbFreeResults : Driver Int := do
  let s ← get
  if s.state ≠ .resultSet then pure 1 else dbFreeResultsInt

/-- The driver has no `next_result`. -/
def dbNextResult : Driver Unit := do
  let s ← get
  if s.state = .invalid then setError .fatal
  else
    let rc ← freeOpen
    setError (if rc ≠ 0 then .fatal else .none)

/-- It has no `stmt_next_result` either. -/
def dbStmtNextResult : Driver Unit := do
  let s ← get
  if s.state = .invalid then pure ()
  else
    let rc ← freeOpen
    if rc ≠ 0 then pure () else setError .none

def dbClose (id : Nat) (stmt : Stmt) : Driver Unit := do
  let s ← get
  if s.state = .invalid then pure ()
  else
    let rc ← freeOpen
    if rc ≠ 0 then pure () else setStmt id { stmt with closed := true }

def dbConnectionClose : Driver Unit := do
  let s ← get
  if s.state = .invalid then pure ()
  else
    let _ ← freeOpen
    pgsqlDrvDisconnect
    modify fun t => { t with state := .invalid }

def dbConnectionReconnect (connects : Bool) : Driver Unit := do
  let s ← get
  if s.state = .invalid then pure ()
  else
    let _ ← freeOpen
    let rc ← pgsqlDrvReconnect connects
    modify fun t => { t with state := if rc = .fatal then .invalid else .ready }

/-- A fetch, with what it returned noted for the result that was open. -/
def fetchNoted : Driver Unit := do
  let s ← get
  let row ← dbFetchRow
  match s.rs.ptr with
  | none => pure ()
  | some id => modify fun t => { t with
      fetched := Function.update t.fetched id (t.fetched id ++ [row]) }

inductive Call where
  | prepare (text : List UInt8) (reply : Reply)
  | bindParam (id : Nat) (types : List BindType) (reply : Reply)
  | execute (id : Nat) (contents : Nat → Contents) (reply : Reply)
  | query (reply : Reply)
  | fetchRow
  | freeResults
  | nextResult
  | stmtNextResult (id : Nat)
  | close (id : Nat)
  | closeConnection
  | reconnect (connects : Bool)

/-- A statement that has not been closed. -/
def openStmt (s : Session) (id : Nat) : Option Stmt :=
  (s.stmts id).filter fun stmt => !stmt.closed

def perform (usePs : Bool) (s : Session) : Call → Option (Driver Unit)
  | .prepare text reply => some (dbPrepare usePs text reply)
  | .bindParam id types reply => (openStmt s id).map fun stmt => do
      let _ ← dbBindParam id stmt types reply
  | .execute id contents reply => (openStmt s id).map fun stmt => dbExecute stmt contents reply
  | .query reply => some (dbQuery reply)
  | .fetchRow => some fetchNoted
  | .freeResults => some do
      let _ ← dbFreeResults
  | .nextResult => some dbNextResult
  | .stmtNextResult id => (openStmt s id).map fun _ => dbStmtNextResult
  | .close id => (openStmt s id).map fun stmt => dbClose id stmt
  | .closeConnection => some dbConnectionClose
  | .reconnect connects => some (dbConnectionReconnect connects)

structure Run where
  session : Session
  fault : Option Fault

/-- A call of the application; none is made behind a fault. -/
def step (usePs : Bool) (r : Run) (call : Call) : Option Run :=
  if r.fault ≠ none then none
  else (perform usePs r.session call).map fun script =>
    match script r.session with
    | .ok _ s => ⟨s, none⟩
    | .error fault s => ⟨s, some fault⟩

/-- A connection that `db_connection_create` has just made. -/
def connected : Session where
  state := .ready
  error := .none
  rs := ⟨.other, 0, 0, none, 0, none⟩
  conn := 0
  conns := 1
  finished _ := false
  results := 0
  shape _ := (0, 0)
  cleared _ := false
  stmts _ := none
  prepared := 0
  fetched _ := []
end Calls

/-! What is known between the driver's operations. -/
section Invariant

/-- Rows in order, then NULL: when all have been handed out, or there are no fields. -/
def InOrder (shape : Nat × Nat) (fetched : List (Option Nat)) : Prop :=
  ∃ rows ends, fetched = (List.range rows).map some ++ List.replicate ends none ∧
    rows ≤ shape.1 ∧ (0 < ends → rows = shape.1 ∨ shape.2 = 0)

/-- The results not cleared are that of the open set and those `lost`. -/
structure Handles (lost : Set Nat) (s : Session) : Prop where
  live : ∀ id, id < s.results ∧ s.cleared id = false ↔ s.rs.ptr = some id ∨ id ∈ lost
  apart : ∀ id, s.rs.ptr = some id → id ∉ lost
  new : ∀ id, s.results ≤ id → s.cleared id = false ∧ s.fetched id = []
  rows : ∀ id, InOrder (s.shape id) (s.fetched id)
  stmts : ∀ id stmt, s.stmts id = some stmt → stmt.emulated = true ∨ stmt.handle = true
  conns : s.conn < s.conns ∧ ∀ id, s.conns ≤ id → s.finished id = false

structure Shut (rs : ResultSet) : Prop where
  ptr : rs.ptr = none
  row : rs.row = 0
  values : rs.values = none

/-- A result set that is read at `row`. -/
def Opened (s : Session) : Prop :=
  ∃ id ends, s.rs.ptr = some id ∧ s.shape id = (s.rs.nrows, s.rs.nfields) ∧
    s.rs.row ≤ s.rs.nrows ∧ (s.rs.values = none ∨ s.rs.values = some s.rs.nfields) ∧
    s.fetched id = (List.range s.rs.row).map some ++ List.replicate ends none ∧
    (0 < ends → s.rs.row = s.rs.nrows ∨ s.rs.nfields = 0)

def Usable (s : Session) : Prop := s.finished s.conn = false

structure Sound (lost : Set Nat) (s : Session) : Prop where
  handles : Handles lost s
  usable : s.state ≠ .invalid → Usable s
  opened : s.state = .resultSet → Opened s
  shut : s.state ≠ .resultSet → Shut s.rs

theorem connected_sound : Sound ∅ connected where
  handles := {
    live := fun id => by simp [connected]
    apart := fun id _ => by simp
    new := fun id _ => ⟨rfl, rfl⟩
    rows := fun id => ⟨0, 0, rfl, Nat.zero_le _, fun some_ => absurd some_ (Nat.lt_irrefl 0)⟩
    stmts := fun id stmt here => by cases here
    conns := ⟨Nat.one_pos, fun _ _ => rfl⟩ }
  usable := fun _ => rfl
  opened := nofun
  shut := fun _ => ⟨rfl, rfl, rfl⟩
end Invariant

/-! Handles of results. -/
section Results
variable {lost : Set Nat} {s t : Session}

def executed (s : Session) (reply : Reply) : Session :=
  { s with
    results := s.results + 1
    shape := Function.update s.shape s.results (shapeOf reply) }

def released (s : Session) (id : Nat) : Session :=
  { s with cleared := Function.update s.cleared id true }

theorem pq_exec_run (usable : Usable s) (reply : Reply) :
    pqExec reply s = .ok s.results (executed s reply) := by
  have open_ : s.finished s.conn = false := usable
  show EStateM.bind useConn _ s = _
  have used : useConn s = .ok () s := by
    show (if s.finished s.conn = true then throw Fault.finished else pure () : Driver Unit) s = _
    rw [open_]
    rfl
  rw [EStateM.bind, used]
  rfl

theorem pq_clear_run {id : Nat} (live : s.cleared id = false) :
    pqClear id s = .ok () (released s id) := by
  show (if s.cleared id = true then throw Fault.cleared else
    set { s with cleared := Function.update s.cleared id true } : Driver Unit) s = _
  rw [live]
  rfl

theorem in_order_nothing (shape : Nat × Nat) : InOrder shape [] :=
  ⟨0, 0, rfl, Nat.zero_le _, fun some_ => absurd some_ (Nat.lt_irrefl 0)⟩

theorem handles_executed (handles : Handles lost s) (reply : Reply) :
    Handles (insert s.results lost) (executed s reply) where
  live id := by
    rw [Set.mem_insert_iff, or_left_comm]
    show _ ↔ id = s.results ∨ s.rs.ptr = some id ∨ id ∈ lost
    rw [← handles.live id]
    constructor
    · rintro ⟨below, live⟩
      rcases Nat.lt_succ_iff_lt_or_eq.mp below with old | rfl
      · exact .inr ⟨old, live⟩
      · exact .inl rfl
    · rintro (rfl | ⟨old, live⟩)
      · exact ⟨Nat.lt_succ_self _, (handles.new _ (Nat.le_refl _)).1⟩
      · exact ⟨Nat.lt_succ_of_lt old, live⟩
  apart id here := by
    have old := ((handles.live id).mpr (.inl here)).1
    rintro (rfl | member)
    · exact Nat.lt_irrefl _ old
    · exact handles.apart id here member
  new id beyond := handles.new id (Nat.le_of_succ_le beyond)
  rows id := by
    by_cases this : id = s.results
    · subst this
      show InOrder _ (s.fetched s.results)
      rw [(handles.new _ (Nat.le_refl _)).2]
      exact in_order_nothing _
    · show InOrder (Function.update s.shape s.results (shapeOf reply) id) (s.fetched id)
      rw [Function.update_of_ne this]
      exact handles.rows id
  stmts := handles.stmts
  conns := handles.conns

theorem handles_released {id : Nat} (handles : Handles (insert id lost) s) (fresh : id ∉ lost) :
    Handles lost (released s id) where
  live other := by
    have known := handles.live other
    rw [Set.mem_insert_iff] at known
    by_cases this : other = id
    · subst this
      have apart : s.rs.ptr ≠ some other :=
        fun here => handles.apart other here (Set.mem_insert _ _)
      simp [released, fresh, apart]
    · show other < s.results ∧ Function.update s.cleared id true other = false ↔
        s.rs.ptr = some other ∨ other ∈ lost
      rw [Function.update_of_ne this]
      simpa [this] using known
  apart other here member := handles.apart other here (Set.mem_insert_of_mem _ member)
  new other beyond := by
    have below := ((handles.live id).mpr (.inr (Set.mem_insert _ _))).1
    have different : other ≠ id := fun same => by
      subst same
      exact absurd beyond (Nat.not_le.mpr below)
    refine ⟨?_, (handles.new other beyond).2⟩
    rw [show (released s id).cleared other = s.cleared other from
      Function.update_of_ne different _ _]
    exact (handles.new other beyond).1
  rows := handles.rows
  stmts := handles.stmts
  conns := handles.conns

theorem handles_live {id : Nat} (handles : Handles (insert id lost) s) : s.cleared id = false :=
  ((handles.live id).mpr (.inr (Set.mem_insert _ _))).2

/-- The result is the open one now. -/
theorem handles_opened {id : Nat} (handles : Handles (insert id lost) s) (fresh : id ∉ lost)
    (none_ : s.rs.ptr = none) :
    Handles lost { s with rs := { s.rs with ptr := some id } } where
  live other := by
    have known := handles.live other
    rw [Set.mem_insert_iff, none_, or_iff_right nofun] at known
    show other < s.results ∧ s.cleared other = false ↔ some id = some other ∨ other ∈ lost
    rw [known, Option.some_inj, eq_comm]
  apart other here := by
    obtain rfl := Option.some.inj here
    exact fresh
  new := handles.new
  rows := handles.rows
  stmts := handles.stmts
  conns := handles.conns
end Results

/-! Commands. -/
section Commands
variable {lost : Set Nat} {s t : Session}

/-- The error of a reply has its SQL state and its message. -/
def Described : Reply → Prop
  | .fatalError sqlState message => sqlState.isSome ∧ message = true
  | _ => True

/-- The results that `pgsql_check_status` leaves uncleared and unused. -/
def lostBy (id : Nat) : Reply → Set Nat
  | .other => {id}
  | _ => ∅

/-- What `pgsql_check_status` does not touch. -/
structure Beside (s t : Session) (id : Nat) : Prop where
  state : t.state = s.state
  usable : Usable t
  ptr : t.rs.ptr = s.rs.ptr
  row : t.rs.row = s.rs.row
  values : t.rs.values = s.rs.values
  shape : t.shape id = s.shape id
  fetched : t.fetched id = s.fetched id

/-- A result set is kept with its size, any other result is cleared. -/
def Checked (lost : Set Nat) (id : Nat) (t : Session) (error : DbError) : Reply → Prop
  | .tuplesOk ntuples nfields =>
      error = .none ∧ t.rs.counter = .read ∧ t.rs.nrows = ntuples ∧ t.rs.nfields = nfields ∧
        Handles (insert id lost) t
  | reply => t.rs.counter ≠ .read ∧ Handles (lost ∪ lostBy id reply) t

theorem meets_check_status {id : Nat} (handles : Handles (insert id lost) s) (fresh : id ∉ lost)
    (usable : Usable s) (reply : Reply) (described : Described reply) :
    Meets (fun u => u = s) (pgsqlCheckStatus id reply)
      (fun error t => Beside s t id ∧ Checked lost id t error reply) (fun _ _ => False) := by
  have below : id < s.results := ((handles.live id).mpr (.inr (Set.mem_insert _ _))).1
  have counted (nrows : Nat) (counter : Counter) : Handles (insert id lost)
      { s with rs := { s.rs with nrows := nrows, counter := counter } } :=
    ⟨handles.live, handles.apart, handles.new, handles.rows, handles.stmts, handles.conns⟩
  cases reply with
  | tuplesOk ntuples nfields =>
      refine meets_ran (t := { s with rs := { s.rs with
        nrows := ntuples, counter := .read, nfields := nfields } }) rfl ?_
      exact ⟨⟨rfl, usable, rfl, rfl, rfl, rfl, rfl⟩, rfl, rfl, rfl, rfl,
        ⟨handles.live, handles.apart, handles.new, handles.rows, handles.stmts, handles.conns⟩⟩
  | commandOk affected =>
      have kept := counted affected (if 0 < affected then .write else .other)
      refine meets_run rfl (meets_run (pq_clear_run (handles_live kept)) (meets_ran rfl ?_))
      refine ⟨⟨rfl, usable, rfl, rfl, rfl, rfl, rfl⟩, ?_, ?_⟩
      · show (if 0 < affected then Counter.write else .other) ≠ .read
        split <;> simp
      · show Handles (lost ∪ ∅) _
        rw [Set.union_empty]
        exact handles_released kept fresh
  | other =>
      refine meets_run rfl (meets_ran rfl ⟨⟨rfl, usable, rfl, rfl, rfl, rfl, rfl⟩, by simp, ?_⟩)
      rw [lostBy, Set.union_singleton]
      exact counted 0 .error
  | fatalError sqlState message =>
      have kept := counted 0 .error
      obtain ⟨some_, rfl⟩ := described
      obtain ⟨code, rfl⟩ := Option.isSome_iff_exists.mp some_
      refine meets_run rfl ?_
      by_cases severe : code = .other
      · subst severe
        refine meets_run (pq_clear_run (handles_live kept)) (meets_ran rfl ?_)
        refine ⟨⟨rfl, usable, rfl, rfl, rfl, rfl, rfl⟩, nofun, ?_⟩
        show Handles (lost ∪ ∅) _
        rw [Set.union_empty]
        exact handles_released kept fresh
      · have unused : s.results ∉ insert id lost := fun member =>
          Nat.lt_irrefl _ ((handles.live s.results).mpr (.inr member)).1
        have still : Usable { s with rs := { s.rs with nrows := 0, counter := .error } } := usable
        have sent := handles_executed kept .other
        have rolled := handles_released sent unused
        -- the ROLLBACK and the failed command are both cleared
        have rollback : Meets (fun u => u = { s with rs := { s.rs with
            nrows := 0, counter := .error } })
            (do
              let tmp ← pqExec .other
              pqClear tmp
              pqClear id
              pure DbError.ignorable : Driver DbError)
            (fun error u => Beside s u id ∧ Checked lost id u error
              (.fatalError (some code) true)) (fun _ _ => False) := by
          refine meets_run (pq_exec_run still .other) (meets_run (pq_clear_run (handles_live sent))
            (meets_run (pq_clear_run (handles_live rolled)) (meets_ran rfl ?_)))
          refine ⟨⟨rfl, usable, rfl, rfl, rfl, ?_, rfl⟩, nofun, ?_⟩
          · exact Function.update_of_ne (Nat.ne_of_lt below) _ _
          · show Handles (lost ∪ ∅) _
            rw [Set.union_empty]
            exact handles_released rolled fresh
        cases code with
        | other => exact absurd rfl severe
        | deadlockDetected => exact rollback
        | uniqueViolation => exact rollback
        | serializationFailure => exact rollback

/-- What a command leaves: an open set of its own, or none. -/
structure Answered (lost : Set Nat) (s t : Session) (reply : Reply) (error : DbError) : Prop where
  handles : Handles (lost ∪ lostBy s.results reply) t
  usable : Usable t
  state : t.state = s.state
  opened : error = .none → t.rs.counter = .read → Opened t
  shut : ¬ (error = .none ∧ t.rs.counter = .read) → Shut t.rs

theorem meets_query (handles : Handles lost s) (usable : Usable s) (shut : Shut s.rs)
    (reply : Reply) (described : Described reply) :
    Meets (fun u => u = s) (pgsqlDrvQuery reply) (fun error t => Answered lost s t reply error)
      (fun _ _ => False) := by
  have unused : s.results ∉ lost := fun member =>
    Nat.lt_irrefl _ ((handles.live s.results).mpr (.inr member)).1
  have sent := handles_executed handles reply
  have usable_ : Usable (executed s reply) := usable
  refine meets_run (pq_exec_run usable reply)
    (meets_bind (meets_check_status sent unused usable_ reply described) fun error => ?_)
  refine meets_modify_then _ fun t ⟨beside, checked⟩ => meets_ran rfl ?_
  have none_ : t.rs.ptr = none := beside.ptr.trans shut.ptr
  by_cases read : t.rs.counter = .read
  · cases reply with
    | tuplesOk ntuples nfields =>
        obtain ⟨rfl, _, rows, fields, kept⟩ := checked
        have size : t.shape s.results = (t.rs.nrows, t.rs.nfields) := by
          rw [beside.shape, rows, fields]
          exact Function.update_self ..
        have row : t.rs.row = 0 := beside.row.trans shut.row
        have fetched : t.fetched s.results = [] :=
          beside.fetched.trans (handles.new _ (Nat.le_refl _)).2
        refine ⟨?_, beside.usable, beside.state, fun _ _ => ?_,
          fun never => absurd ⟨rfl, read⟩ never⟩
        · show Handles (lost ∪ ∅) _
          rw [Set.union_empty, if_pos read]
          exact handles_opened kept unused none_
        · refine ⟨s.results, 0, if_pos read, size, ?_, .inl (beside.values.trans shut.values), ?_,
            fun some_ => absurd some_ (Nat.lt_irrefl 0)⟩
          · rw [row]
            exact Nat.zero_le _
          · show t.fetched s.results = (List.range t.rs.row).map some ++ []
            rw [row, fetched]
            rfl
    | commandOk affected => exact absurd read checked.1
    | fatalError sqlState message => exact absurd read checked.1
    | other => exact absurd read checked.1
  · have closed : (if t.rs.counter = .read then some s.results else none) = none := if_neg read
    have kept : Handles (lost ∪ lostBy s.results reply) t := by
      cases reply with
      | tuplesOk ntuples nfields => exact absurd checked.2.1 read
      | commandOk affected => exact checked.2
      | fatalError sqlState message => exact checked.2
      | other => exact checked.2
    refine ⟨?_, beside.usable, beside.state, fun _ there => absurd there read,
      fun _ => ⟨closed, beside.row.trans shut.row, beside.values.trans shut.values⟩⟩
    rw [if_neg read, ← none_]
    exact kept
end Commands

/-! Freeing and fetching. -/
section Sets
variable {lost : Set Nat} {s t : Session}

/-- The session behind `db_free_results_int` on the result `id`. -/
def freed (s : Session) (id : Nat) : Session :=
  { released s id with
    rs := { s.rs with ptr := none, row := 0, values := none, nrows := 0, nfields := 0 }
    state := .ready }

theorem free_results_run {id : Nat} (here : s.rs.ptr = some id) (live : s.cleared id = false) :
    dbFreeResultsInt s = .ok 0 (freed s id) := by
  have cleared : pgsqlDrvFreeResults s = .ok 0 { released s id with
      rs := { s.rs with ptr := none, row := 0 } } := by
    show (match s.rs.ptr with
      | none => pure 1
      | some id => do
          pqClear id
          modify fun t => { t with rs := { t.rs with ptr := none, row := 0 } }
          pure 0 : Driver Int) s = _
    rw [here]
    show EStateM.bind (pqClear id) _ s = _
    rw [EStateM.bind, pq_clear_run live]
    rfl
  show EStateM.bind pgsqlDrvFreeResults _ s = _
  rw [EStateM.bind, cleared]
  rfl

theorem freed_sound {id : Nat} (handles : Handles lost s) (usable : Usable s)
    (here : s.rs.ptr = some id) : Sound lost (freed s id) where
  handles := {
    live := fun other => by
      have known := handles.live other
      show other < s.results ∧ Function.update s.cleared id true other = false ↔
        none = some other ∨ other ∈ lost
      by_cases this : other = id
      · subst this
        simp [handles.apart other here]
      · rw [Function.update_of_ne this, known, here, Option.some_inj]
        simp [Ne.symm this]
    apart := nofun
    new := fun other beyond => by
      have below := ((handles.live id).mpr (.inl here)).1
      have different : other ≠ id := fun same => by
        subst same
        exact absurd beyond (Nat.not_le.mpr below)
      refine ⟨?_, (handles.new other beyond).2⟩
      show Function.update s.cleared id true other = false
      rw [Function.update_of_ne different]
      exact (handles.new other beyond).1
    rows := handles.rows
    stmts := handles.stmts
    conns := handles.conns }
  usable := fun _ => usable
  opened := nofun
  shut := fun _ => ⟨rfl, rfl, rfl⟩

/-- Freeing what is open never fails, and keeps the rest. -/
theorem free_open_run (sound : Sound lost s) (valid : s.state ≠ .invalid) :
    ∃ t, freeOpen s = .ok 0 t ∧ Sound lost t ∧ t.state = .ready ∧ t.results = s.results ∧
      t.stmts = s.stmts := by
  by_cases some_ : s.state = .resultSet
  · obtain ⟨id, _, here, _⟩ := sound.opened some_
    have live := ((sound.handles.live id).mpr (.inl here)).2
    refine ⟨freed s id, ?_, freed_sound sound.handles (sound.usable valid) here, rfl, rfl, rfl⟩
    show (if s.state = .resultSet then dbFreeResultsInt else pure 0 : Driver Int) s = _
    rw [if_pos some_]
    exact free_results_run here live
  · refine ⟨s, ?_, sound, ?_, rfl, rfl⟩
    · show (if s.state = .resultSet then dbFreeResultsInt else pure 0 : Driver Int) s = _
      rw [if_neg some_]
      rfl
    · cases known : s.state with
      | ready => rfl
      | resultSet => exact absurd known some_
      | invalid => exact absurd known valid

theorem meets_free_then {Value : Type} {script : Int → Driver Value}
    {after : Value → Session → Prop} {thrown : Fault → Session → Prop} (sound : Sound lost s)
    (valid : s.state ≠ .invalid)
    (rest : ∀ t, Sound lost t → t.state = .ready → t.results = s.results → t.stmts = s.stmts →
      Meets (fun u => u = t) (script 0) after thrown) :
    Meets (fun u => u = s) (freeOpen >>= script) after thrown := by
  obtain ⟨t, ran, kept, ready, results, stmts⟩ := free_open_run sound valid
  exact meets_run ran (rest t kept ready results stmts)

/-- A note of what was fetched from the result set that is open. -/
def noted (s : Session) (id : Nat) (row : Option Nat) : Session :=
  { s with fetched := Function.update s.fetched id (s.fetched id ++ [row]) }

theorem noted_sound {id row ends : Nat} {fetched : Option Nat} {values : Option Nat}
    (sound : Sound lost s) (some_ : s.state = .resultSet) (here : s.rs.ptr = some id)
    (size : s.shape id = (s.rs.nrows, s.rs.nfields)) (inside : row ≤ s.rs.nrows)
    (filled : values = none ∨ values = some s.rs.nfields)
    (all : s.fetched id ++ [fetched] = (List.range row).map some ++ List.replicate ends none)
    (last : 0 < ends → row = s.rs.nrows ∨ s.rs.nfields = 0) :
    Sound lost (noted { s with rs := { s.rs with row := row, values := values } } id fetched) where
  handles := {
    live := sound.handles.live
    apart := sound.handles.apart
    new := fun other beyond => by
      have below := ((sound.handles.live id).mpr (.inl here)).1
      have different : other ≠ id := fun same => by
        subst same
        exact absurd beyond (Nat.not_le.mpr below)
      refine ⟨(sound.handles.new other beyond).1, ?_⟩
      exact (Function.update_of_ne different _ _).trans (sound.handles.new other beyond).2
    rows := fun other => by
      by_cases this : other = id
      · subst this
        refine ⟨row, ends, ?_, ?_, ?_⟩
        · exact (Function.update_self ..).trans all
        · exact size ▸ inside
        · exact fun some_ => size ▸ last some_
      · show InOrder (s.shape other) (Function.update s.fetched id _ other)
        rw [Function.update_of_ne this]
        exact sound.handles.rows other
    stmts := sound.handles.stmts
    conns := sound.handles.conns }
  usable := sound.usable
  opened := fun _ =>
    ⟨id, ends, here, size, inside, filled, (Function.update_self ..).trans all, last⟩
  shut := fun never => absurd some_ never

theorem fetch_empty_run (empty : s.state ≠ .resultSet ∨ s.rs.nrows = 0 ∨ s.rs.nfields = 0) :
    dbFetchRow s = .ok none s := by
  show (if s.state ≠ .resultSet then pure none
    else if s.rs.nrows = 0 ∨ s.rs.nfields = 0 then pure none
    else do
      modify fun t => { t with rs := { t.rs with values := some (t.rs.values.getD t.rs.nfields) } }
      pgsqlDrvFetchRow : Driver (Option Nat)) s = _
  by_cases closed : s.state ≠ .resultSet
  · rw [if_pos closed]
    rfl
  · rw [if_neg closed, if_pos (empty.resolve_left closed)]
    rfl

/-- The session with `row.values` allocated. -/
def allocated (s : Session) : Session := { s with rs := { s.rs with values := some s.rs.nfields } }

theorem fetch_filled_run (some_ : s.state = .resultSet) (rows : s.rs.nrows ≠ 0)
    (fields : s.rs.nfields ≠ 0) (filled : s.rs.values = none ∨ s.rs.values = some s.rs.nfields) :
    dbFetchRow s = pgsqlDrvFetchRow (allocated s) := by
  have values : some (s.rs.values.getD s.rs.nfields) = some s.rs.nfields := by
    rcases filled with none_ | some_ <;> simp [*]
  show (if s.state ≠ .resultSet then pure none
    else if s.rs.nrows = 0 ∨ s.rs.nfields = 0 then pure none
    else do
      modify fun t => { t with rs := { t.rs with values := some (t.rs.values.getD t.rs.nfields) } }
      pgsqlDrvFetchRow : Driver (Option Nat)) s = _
  rw [if_neg (not_not.mpr some_), if_neg (not_or.mpr ⟨rows, fields⟩)]
  show pgsqlDrvFetchRow
    { s with rs := { s.rs with values := some (s.rs.values.getD s.rs.nfields) } } = _
  rw [values]
  rfl

/-- All fields of a row are read. -/
theorem fetch_next_run {id : Nat} (here : s.rs.ptr = some id) (live : s.cleared id = false)
    (size : s.shape id = (s.rs.nrows, s.rs.nfields)) (more : s.rs.row < s.rs.nrows) :
    pgsqlDrvFetchRow (allocated s) = .ok (some s.rs.row)
      { s with rs := { s.rs with row := s.rs.row + 1, values := some s.rs.nfields } } := by
  have fields : (List.range s.rs.nfields).forM readField (allocated s) = .ok () (allocated s) := by
    refine for_each_looks _ fun i member => ?_
    have inside : ¬ ((s.shape id).1 ≤ s.rs.row ∨ (s.shape id).2 ≤ i ∨ s.rs.nfields ≤ i) := by
      have below := List.mem_range.mp member
      rw [size]
      dsimp only
      omega
    show (match s.rs.ptr, some s.rs.nfields with
      | some id, some width =>
          if s.cleared id then throw .cleared
          else if (s.shape id).1 ≤ s.rs.row ∨ (s.shape id).2 ≤ i ∨ width ≤ i then throw .outside
          else pure ()
      | _, _ => throw .nullPointer : Driver Unit) (allocated s) = _
    rw [here]
    dsimp only
    rw [live, if_neg inside]
    rfl
  show (if s.rs.nrows ≤ s.rs.row then pure none
    else do
      (List.range s.rs.nfields).forM readField
      modify fun t => { t with rs := { t.rs with row := t.rs.row + 1 } }
      pure (some s.rs.row) : Driver (Option Nat)) (allocated s) = _
  rw [if_neg (Nat.not_le.mpr more)]
  show EStateM.bind ((List.range s.rs.nfields).forM readField) _ (allocated s) = _
  rw [EStateM.bind, fields]
  rfl

theorem fetch_end_run (all : s.rs.nrows ≤ s.rs.row) :
    pgsqlDrvFetchRow (allocated s) = .ok none (allocated s) := by
  show (if s.rs.nrows ≤ s.rs.row then pure none
    else do
      (List.range s.rs.nfields).forM readField
      modify fun t => { t with rs := { t.rs with row := t.rs.row + 1 } }
      pure (some s.rs.row) : Driver (Option Nat)) (allocated s) = _
  rw [if_pos all]
  rfl

theorem fetch_noted_run {id : Nat} {fetched : Option Nat} (here : s.rs.ptr = some id)
    (ran : dbFetchRow s = .ok fetched t) : fetchNoted s = .ok () (noted t id fetched) := by
  show EStateM.bind dbFetchRow _ s = _
  rw [EStateM.bind, ran]
  show (match s.rs.ptr with
    | none => pure ()
    | some id => modify fun t => noted t id fetched : Driver Unit) t = _
  rw [here]
  rfl

/-- A fetch hands out the next row, or nothing any more. -/
theorem meets_fetch (sound : Sound lost s) :
    Meets (fun u => u = s) fetchNoted (fun _ t => Sound lost t) (fun _ _ => False) := by
  by_cases some_ : s.state = .resultSet
  case neg =>
    have none_ := (sound.shut some_).ptr
    have ran : fetchNoted s = .ok () s := by
      show EStateM.bind dbFetchRow _ s = _
      rw [EStateM.bind, fetch_empty_run (.inl some_)]
      show (match s.rs.ptr with
        | none => pure ()
        | some id => modify fun t => noted t id none : Driver Unit) s = _
      rw [none_]
      rfl
    exact meets_ran ran sound
  obtain ⟨id, ends, here, size, inside, filled, fetched, last⟩ := sound.opened some_
  have live := ((sound.handles.live id).mpr (.inl here)).2
  -- NULL, once more
  have ended : s.fetched id ++ [none] =
      (List.range s.rs.row).map some ++ List.replicate (ends + 1) none := by
    rw [fetched, List.append_assoc, List.replicate_succ']
  by_cases empty : s.rs.nrows = 0 ∨ s.rs.nfields = 0
  · refine meets_ran (fetch_noted_run here (fetch_empty_run (.inr empty))) ?_
    refine noted_sound sound some_ here size inside filled ended fun _ => ?_
    rcases empty with rows | fields
    · exact .inl (Nat.le_antisymm inside (rows ▸ Nat.zero_le _))
    · exact .inr fields
  obtain ⟨rows, fields⟩ := not_or.mp empty
  have filling := fetch_filled_run some_ rows fields filled
  by_cases more : s.rs.row < s.rs.nrows
  · have first : ends = 0 := by
      by_contra some_
      rcases last (Nat.pos_of_ne_zero some_) with all | none_
      · exact Nat.ne_of_lt more all
      · exact fields none_
    have next : s.fetched id ++ [some s.rs.row] =
        (List.range (s.rs.row + 1)).map some ++ List.replicate 0 none := by
      rw [fetched, first, List.range_succ, List.map_append]
      simp
    refine meets_ran (fetch_noted_run here (filling.trans (fetch_next_run here live size more))) ?_
    exact noted_sound sound some_ here size more (.inr rfl) next
      fun some_ => absurd some_ (Nat.lt_irrefl 0)
  · have all := Nat.not_lt.mp more
    refine meets_ran (fetch_noted_run here (filling.trans (fetch_end_run all))) ?_
    exact noted_sound sound some_ here size inside (.inr rfl) ended
      fun _ => .inl (Nat.le_antisymm inside all)
end Sets

/-! Calls. -/
section Sessions
variable {lost : Set Nat} {s t : Session}

theorem handles_error (handles : Handles lost s) (error : DbError) (state : ConnState) :
    Handles lost { s with error := error, state := state } :=
  ⟨handles.live, handles.apart, handles.new, handles.rows, handles.stmts, handles.conns⟩

theorem sound_error (sound : Sound lost s) (error : DbError) :
    Sound lost { s with error := error } :=
  ⟨handles_error sound.handles error s.state, sound.usable, sound.opened, sound.shut⟩

/-- A result set is open where the answer was one. -/
theorem finish_sound {reply : Reply} {error : DbError}
    (answered : Answered lost s t reply error) (ready : s.state = .ready) :
    Meets (fun u => u = t) (finish error) (fun _ u => Sound (lost ∪ lostBy s.results reply) u)
      (fun _ _ => False) := by
  have state : t.state = .ready := answered.state.trans ready
  refine meets_ran rfl ?_
  by_cases opens : error = .none ∧ t.rs.counter = .read
  · have next : (if error = .none then (if t.rs.counter = .read then ConnState.resultSet
        else .ready) else t.state) = .resultSet := by rw [if_pos opens.1, if_pos opens.2]
    refine ⟨handles_error answered.handles error _, fun _ => answered.usable,
      fun _ => answered.opened opens.1 opens.2, fun never => absurd next never⟩
  · have next : (if error = .none then (if t.rs.counter = .read then ConnState.resultSet
        else .ready) else t.state) = .ready := by
      by_cases none_ : error = .none
      · rw [if_pos none_, if_neg fun read => opens ⟨none_, read⟩]
      · rw [if_neg none_, state]
    refine ⟨handles_error answered.handles error _, fun _ => answered.usable, fun some_ => ?_,
      fun _ => answered.shut opens⟩
    exact absurd (next.symm.trans some_) (by decide)

/-- The results that a command sent on a session leaves uncleared for ever. -/
def lostTo (s : Session) (reply : Reply) : Set Nat :=
  if s.state = .invalid then ∅ else lostBy s.results reply

theorem meets_db_query (sound : Sound lost s) (reply : Reply)
    (described : s.state ≠ .invalid → Described reply) :
    Meets (fun u => u = s) (dbQuery reply) (fun _ t => Sound (lost ∪ lostTo s reply) t)
      (fun _ _ => False) := by
  refine meets_read fun u same => ?_
  subst same
  unfold lostTo
  split
  · rw [Set.union_empty]
    exact meets_ran rfl (sound_error sound .fatal)
  · rename_i valid
    refine meets_free_then sound valid fun t kept ready results _ => ?_
    have closed := kept.shut (by rw [ready]; decide)
    rw [← results]
    refine meets_bind (meets_query kept.handles (kept.usable (by rw [ready]; decide)) closed reply
      (described valid)) fun error => meets_at fun u answered => finish_sound answered ready

/-- A parameter has a place for its value: in the emulation a string has its end, else
there are buffers and a string leaves room for its terminator. -/
def Placed (stmt : Stmt) (type : BindType) (contents : Contents) : Prop :=
  contents.isNull = true ∨
    if stmt.emulated then type = .string → contents.terminated = true
    else stmt.pvalues = true ∧ (type = .string → contents.dataLen < maxParamLength)

/-- The i-th parameter is bound and has its place. -/
def Reads (stmt : Stmt) (contents : Nat → Contents) (i : Nat) : Prop :=
  ∃ types type, stmt.bound = some types ∧ types[i]? = some type ∧ Placed stmt type (contents i)

/-- A parameter for every question mark, and in the emulation a text at all. -/
def Filled (stmt : Stmt) (contents : Nat → Contents) : Prop :=
  (∀ i < stmt.marks, Reads stmt contents i) ∧ (stmt.emulated = true → stmt.text ≠ [])

/-- Either way the session stays as it is. -/
theorem put_value_cases (stmt : Stmt) (type : BindType) (contents : Contents) (s : Session) :
    (Placed stmt type contents ∧ putValue stmt type contents s = .ok () s) ∨
      (¬ Placed stmt type contents ∧ ∃ fault, putValue stmt type contents s = .error fault s) := by
  unfold Placed putValue
  by_cases null : contents.isNull = true
  · rw [if_pos null]
    exact .inl ⟨.inl null, rfl⟩
  rw [if_neg null, or_iff_right null]
  by_cases emulated : stmt.emulated = true
  · rw [if_pos emulated, if_pos emulated]
    by_cases open_ : type = .string ∧ contents.terminated = false
    · rw [if_pos open_]
      exact .inr ⟨by simp [open_], _, rfl⟩
    · rw [if_neg open_]
      exact .inl ⟨by simpa using open_, rfl⟩
  rw [if_neg emulated, if_neg emulated]
  by_cases bare : stmt.pvalues = false
  · rw [if_pos bare]
    exact .inr ⟨by simp [bare], _, rfl⟩
  rw [if_neg bare]
  by_cases long : type = .string ∧ maxParamLength ≤ contents.dataLen
  · rw [if_pos long]
    exact .inr ⟨by simp [long], _, rfl⟩
  · rw [if_neg long]
    exact .inl ⟨⟨by simpa using bare, by simpa using long⟩, rfl⟩

theorem use_param_cases (stmt : Stmt) (contents : Nat → Contents) (i : Nat) (s : Session) :
    (Reads stmt contents i ∧ useParam stmt contents i s = .ok () s) ∨
      (¬ Reads stmt contents i ∧ ∃ fault, useParam stmt contents i s = .error fault s) := by
  unfold Reads
  cases bound : stmt.bound with
  | none =>
      have used : useParam stmt contents i = throw .nullPointer := by rw [useParam, bound]
      rw [used]
      exact .inr ⟨by simp, _, rfl⟩
  | some types =>
      cases found : types[i]? with
      | none =>
          have used : useParam stmt contents i = throw .outside := by
            rw [useParam, bound]
            dsimp only
            rw [found]
          rw [used]
          exact .inr ⟨by simp [found], _, rfl⟩
      | some type =>
          have used : useParam stmt contents i = putValue stmt type (contents i) := by
            rw [useParam, bound]
            dsimp only
            rw [found]
          rw [used]
          simpa [found] using put_value_cases stmt type (contents i) s

theorem use_param_run {stmt : Stmt} {contents : Nat → Contents} {i : Nat}
    (reads : Reads stmt contents i) : useParam stmt contents i s = .ok () s :=
  ((use_param_cases stmt contents i s).resolve_right fun never => never.1 reads).2

theorem use_param_fault {stmt : Stmt} {contents : Nat → Contents} {i : Nat}
    (unread : ¬ Reads stmt contents i) : ∃ fault, useParam stmt contents i s = .error fault s :=
  ((use_param_cases stmt contents i s).resolve_left fun never => unread never.1).2

theorem use_params_run {stmt : Stmt} {contents : Nat → Contents}
    (reads : ∀ i < stmt.marks, Reads stmt contents i) :
    (List.range stmt.marks).forM (useParam stmt contents) s = .ok () s :=
  for_each_looks _ fun i member => use_param_run (reads i (List.mem_range.mp member))

theorem use_params_fault {stmt : Stmt} {contents : Nat → Contents}
    (unread : ¬ ∀ i < stmt.marks, Reads stmt contents i) :
    ∃ fault, (List.range stmt.marks).forM (useParam stmt contents) s = .error fault s := by
  push Not at unread
  obtain ⟨i, below, unread⟩ := unread
  refine for_each_throws _ (fun j _ => ?_) (List.mem_range.mpr below) ?_
  · by_cases reads : Reads stmt contents j
    · exact .inl (use_param_run reads)
    · exact .inr (use_param_fault reads)
  · obtain ⟨fault, threw⟩ := use_param_fault (s := s) unread
    rw [threw]
    nofun

theorem meets_db_execute (sound : Sound lost s) {id : Nat} {stmt : Stmt}
    (here : s.stmts id = some stmt) {contents : Nat → Contents} (reply : Reply)
    (proper : s.state ≠ .invalid → Described reply ∧ Filled stmt contents) :
    Meets (fun u => u = s) (dbExecute stmt contents reply)
      (fun _ t => Sound (lost ∪ lostTo s reply) t) (fun _ _ => False) := by
  refine meets_read fun u same => ?_
  subst same
  have sent : ¬ (stmt.emulated = false ∧ stmt.handle = false) := by
    rcases sound.handles.stmts id stmt here with emulated | handle <;> simp [*]
  unfold lostTo
  split
  · rw [Set.union_empty]
    exact meets_ran rfl sound
  · rename_i valid
    refine meets_free_then sound valid fun t kept ready results _ => ?_
    have closed := kept.shut (by rw [ready]; decide)
    have command : Meets (fun u => u = t) (pgsqlDrvExecute stmt contents reply)
        (fun error u => Answered lost t u reply error) (fun _ _ => False) := by
      unfold pgsqlDrvExecute
      obtain ⟨reads, some_⟩ := (proper valid).2
      rw [if_neg sent]
      refine meets_run (use_params_run reads) ?_
      rw [if_neg fun empty => some_ empty.1 empty.2]
      exact meets_query kept.handles (kept.usable (by rw [ready]; decide)) closed reply
        (proper valid).1
    rw [← results]
    exact meets_bind command fun error => meets_at fun u answered => finish_sound answered ready

/-- The fields of an error are read by `strdup`. -/
theorem undescribed_faults {before : Session → Prop} {reply : Reply} (bare : ¬ Described reply)
    (id : Nat) : Meets before (pgsqlCheckStatus id reply) (fun _ _ => False) (fun _ _ => True) := by
  cases reply with
  | tuplesOk ntuples nfields => exact absurd trivial bare
  | commandOk affected => exact absurd trivial bare
  | other => exact absurd trivial bare
  | fatalError sqlState message =>
      refine meets_modify_then _ fun _ _ => ?_
      cases sqlState with
      | none => exact meets_throw _ fun _ _ => trivial
      | some code =>
          cases message with
          | true => exact absurd ⟨rfl, rfl⟩ bare
          | false => cases code <;> exact meets_throw _ fun _ _ => trivial

theorem query_faults (usable : Usable s) {reply : Reply} (bare : ¬ Described reply) :
    Meets (fun u => u = s) (pgsqlDrvQuery reply) (fun _ _ => False) (fun _ _ => True) :=
  meets_run (pq_exec_run usable reply)
    (meets_bind (undescribed_faults bare _) fun _ _ never => never.elim)

theorem meets_db_query_faults (sound : Sound lost s) (valid : s.state ≠ .invalid) {reply : Reply}
    (bare : ¬ Described reply) :
    Meets (fun u => u = s) (dbQuery reply) (fun _ _ => False) (fun _ _ => True) := by
  refine meets_read fun u same => ?_
  subst same
  rw [if_neg valid]
  refine meets_free_then sound valid fun t kept ready _ _ => ?_
  exact meets_bind (query_faults (kept.usable (by rw [ready]; decide)) bare)
    fun _ _ never => never.elim

theorem meets_db_execute_faults (sound : Sound lost s) (valid : s.state ≠ .invalid) {id : Nat}
    {stmt : Stmt} (here : s.stmts id = some stmt) {contents : Nat → Contents} {reply : Reply}
    (improper : ¬ (Described reply ∧ Filled stmt contents)) :
    Meets (fun u => u = s) (dbExecute stmt contents reply) (fun _ _ => False)
      (fun _ _ => True) := by
  refine meets_read fun u same => ?_
  subst same
  have sent : ¬ (stmt.emulated = false ∧ stmt.handle = false) := by
    rcases sound.handles.stmts id stmt here with emulated | handle <;> simp [*]
  rw [if_neg valid]
  refine meets_free_then sound valid fun t kept ready _ _ => ?_
  have command : Meets (fun u => u = t) (pgsqlDrvExecute stmt contents reply) (fun _ _ => False)
      (fun _ _ => True) := by
    unfold pgsqlDrvExecute
    rw [if_neg sent]
    by_cases reads : ∀ i < stmt.marks, Reads stmt contents i
    · refine meets_run (use_params_run reads) ?_
      split
      · exact meets_throw _ fun _ _ => trivial
      · rename_i some_
        refine query_faults (kept.usable (by rw [ready]; decide)) fun described => ?_
        exact improper ⟨described, reads, fun emulated empty => some_ ⟨emulated, empty⟩⟩
    · obtain ⟨fault, threw⟩ := use_params_fault (s := t) reads
      have throws : Meets (fun u => u = t) ((List.range stmt.marks).forM (useParam stmt contents))
          (fun _ _ => False) (fun _ _ => True) := meets_threw threw trivial
      exact meets_bind throws fun _ _ never => never.elim
  exact meets_bind command fun _ _ never => never.elim

theorem sound_stmt (sound : Sound lost s) (id : Nat) (stmt : Stmt)
    (usable : stmt.emulated = true ∨ stmt.handle = true) :
    Sound lost { s with stmts := Function.update s.stmts id (some stmt) } where
  handles := { sound.handles with
    stmts := fun other made here => by
      have found : Function.update s.stmts id (some stmt) other = some made := here
      by_cases this : other = id
      · subst this
        rw [Function.update_self] at found
        exact Option.some.inj found ▸ usable
      · rw [Function.update_of_ne this] at found
        exact sound.handles.stmts other made found }
  usable := sound.usable
  opened := sound.opened
  shut := sound.shut

/-- A command may be sent while a result set is open. -/
theorem sound_executed (sound : Sound lost s) (reply : Reply) :
    Sound (insert s.results lost) (executed s reply) where
  handles := handles_executed sound.handles reply
  usable := sound.usable
  opened some_ := by
    obtain ⟨id, ends, here, size, rest⟩ := sound.opened some_
    have below := ((sound.handles.live id).mpr (.inl here)).1
    refine ⟨id, ends, here, ?_, rest⟩
    exact (Function.update_of_ne (Nat.ne_of_lt below) _ _).trans size
  shut := sound.shut

theorem sound_released {id : Nat} (sound : Sound (insert id lost) s) (fresh : id ∉ lost) :
    Sound lost (released s id) :=
  ⟨handles_released sound.handles fresh, sound.usable, sound.opened, sound.shut⟩

theorem unused (sound : Sound lost s) : s.results ∉ lost := fun member =>
  Nat.lt_irrefl _ ((sound.handles.live s.results).mpr (.inr member)).1

/-- The result of a PQprepare that is cleared. -/
theorem cleared_run (sound : Sound lost s) (valid : s.state ≠ .invalid) (reply : Reply) :
    pqExec reply s = .ok s.results (executed s reply) ∧
      pqClear s.results (executed s reply) = .ok () (released (executed s reply) s.results) ∧
      Sound lost (released (executed s reply) s.results) := by
  have sent := sound_executed sound reply
  exact ⟨pq_exec_run (sound.usable valid) reply, pq_clear_run (handles_live sent.handles),
    sound_released sent (unused sound)⟩

theorem meets_add_stmt (sound : Sound lost s) (stmt : Stmt)
    (usable : stmt.emulated = true ∨ stmt.handle = true) (n : Nat) :
    Meets (fun u => u = s) (do
        setStmt n stmt
        modify fun t => { t with prepared := t.prepared + 1 })
      (fun _ t => Sound lost t) (fun _ _ => False) := by
  refine meets_run rfl (meets_ran rfl ?_)
  have kept := sound_stmt sound n stmt usable
  exact ⟨⟨kept.handles.live, kept.handles.apart, kept.handles.new, kept.handles.rows,
    kept.handles.stmts, kept.handles.conns⟩, kept.usable, kept.opened, kept.shut⟩

/-- A text that is sent for a prepare has a first character. -/
def Buffered (usePs : Bool) (s : Session) (text : List UInt8) : Prop :=
  usePs = true → s.state ≠ .invalid → text ≠ []

theorem meets_db_prepare (sound : Sound lost s) (usePs : Bool) (text : List UInt8) (reply : Reply)
    (buffered : Buffered usePs s text) :
    Meets (fun u => u = s) (dbPrepare usePs text reply) (fun _ t => Sound lost t)
      (fun _ _ => False) := by
  refine meets_read fun u same => ?_
  subst same
  split
  · exact meets_ran rfl sound
  rename_i valid
  unfold pgsqlDrvPrepare
  split
  · exact meets_run rfl (meets_add_stmt sound _ (.inl rfl) _)
  rename_i server
  rw [if_neg (buffered (by simpa using server) valid)]
  split
  · exact meets_run rfl (meets_add_stmt sound _ (.inr rfl) _)
  obtain ⟨sent, cleared, kept⟩ := cleared_run sound valid reply
  have made : (do
      let id ← pqExec reply
      pqClear id
      match reply with
      | .commandOk _ => pure (some ⟨false, text, true, true, none, false, false⟩)
      | _ => pure none : Driver (Option Stmt)) u = .ok
        (match reply with
          | .commandOk _ => some ⟨false, text, true, true, none, false, false⟩
          | _ => none) (released (executed u reply) u.results) := by
    show EStateM.bind (pqExec reply) _ u = _
    rw [EStateM.bind, sent]
    show EStateM.bind (pqClear u.results) _ (executed u reply) = _
    rw [EStateM.bind, cleared]
    cases reply <;> rfl
  refine meets_run made ?_
  cases reply with
  | commandOk affected => exact meets_add_stmt kept _ (.inr rfl) _
  | tuplesOk ntuples nfields => exact meets_ran rfl (sound_error kept .fatal)
  | fatalError sqlState message => exact meets_ran rfl (sound_error kept .fatal)
  | other => exact meets_ran rfl (sound_error kept .fatal)

theorem meets_db_prepare_faults {usePs : Bool} {text : List UInt8} (reply : Reply)
    (bare : ¬ Buffered usePs s text) :
    Meets (fun u => u = s) (dbPrepare usePs text reply) (fun _ _ => False) (fun _ _ => True) := by
  unfold Buffered at bare
  push Not at bare
  obtain ⟨server, valid, empty⟩ := bare
  refine meets_read fun u same => ?_
  subst same
  rw [if_neg valid]
  unfold pgsqlDrvPrepare
  rw [if_neg (by simp [server]), if_pos empty]
  have threw : Meets (fun t => t = u) (throw .nullPointer : Driver (Option Stmt))
      (fun _ _ => False) (fun _ _ => True) := meets_throw _ fun _ _ => trivial
  exact meets_bind threw fun _ _ never => never.elim

/-- A PQprepare of `bind_param` that fails. -/
def bindLoses (s : Session) (stmt : Stmt) (types : List BindType) : Reply → Prop
  | .commandOk _ => False
  | _ => s.state ≠ .invalid ∧ stmt.emulated = false ∧ stmt.prepared = false ∧
      stmt.marks = types.length

theorem meets_db_bind_param (sound : Sound lost s) {id : Nat} {stmt : Stmt}
    (here : s.stmts id = some stmt) (types : List BindType) (reply : Reply) :
    Meets (fun u => u = s) (dbBindParam id stmt types reply)
      (fun _ t => Sound (lost ∪ {n | n = s.results ∧ bindLoses s stmt types reply}) t)
      (fun _ _ => False) := by
  have usable := sound.handles.stmts id stmt here
  have nothing (none_ : ¬ bindLoses s stmt types reply) :
      lost ∪ {n | n = s.results ∧ bindLoses s stmt types reply} = lost := by
    simp [none_]
  have one (loses : bindLoses s stmt types reply) :
      lost ∪ {n | n = s.results ∧ bindLoses s stmt types reply} = insert s.results lost := by
    have all : {n | n = s.results ∧ bindLoses s stmt types reply} = {s.results} :=
      Set.ext fun n => by simp [loses]
    rw [all, Set.union_singleton]
  have bound := sound_stmt sound id { stmt with bound := some types } usable
  refine meets_read fun u same => ?_
  subst same
  split
  · rename_i invalid
    rw [nothing fun loses => by cases reply <;> simp_all [bindLoses]]
    exact meets_ran rfl sound
  rename_i valid
  refine meets_run rfl ?_
  split
  · rename_i emulated
    rw [nothing fun loses => by cases reply <;> simp_all [bindLoses]]
    exact meets_ran rfl bound
  rename_i server
  have handle : stmt.handle = true := usable.resolve_left server
  rw [if_neg (by simp [handle])]
  split
  · rename_i prepared
    rw [nothing fun loses => by cases reply <;> simp_all [bindLoses]]
    exact meets_ran rfl bound
  rename_i unprepared
  split
  · rename_i wrong
    rw [nothing fun loses => by cases reply <;> simp_all [bindLoses]]
    exact meets_ran rfl bound
  rename_i right
  obtain ⟨sent, cleared, kept⟩ := cleared_run bound valid reply
  refine meets_run sent ?_
  cases reply with
  | commandOk affected =>
      rw [nothing fun never => never]
      refine meets_run cleared (meets_run rfl (meets_ran rfl ?_))
      exact sound_stmt kept id _ (.inr handle)
  | tuplesOk ntuples nfields | fatalError sqlState message | other =>
      rw [one ⟨valid, by simpa using server, by simpa using unprepared, not_not.mp right⟩]
      exact meets_ran rfl (sound_executed bound _)

theorem meets_db_free_results (sound : Sound lost s) :
    Meets (fun u => u = s) dbFreeResults (fun _ t => Sound lost t) (fun _ _ => False) := by
  refine meets_read fun u same => ?_
  subst same
  split
  · exact meets_ran rfl sound
  · rename_i some_
    obtain ⟨id, _, here, _⟩ := sound.opened (not_not.mp some_)
    have live := ((sound.handles.live id).mpr (.inl here)).2
    have usable := sound.usable (by rw [not_not.mp some_]; decide)
    exact meets_ran (free_results_run here live) (freed_sound sound.handles usable here)

theorem meets_db_next_result (sound : Sound lost s) :
    Meets (fun u => u = s) dbNextResult (fun _ t => Sound lost t) (fun _ _ => False) := by
  refine meets_read fun u same => ?_
  subst same
  split
  · exact meets_ran rfl (sound_error sound .fatal)
  · rename_i valid
    exact meets_free_then sound valid fun t kept _ _ _ => meets_ran rfl (sound_error kept .none)

theorem meets_db_stmt_next_result (sound : Sound lost s) :
    Meets (fun u => u = s) dbStmtNextResult (fun _ t => Sound lost t) (fun _ _ => False) := by
  refine meets_read fun u same => ?_
  subst same
  split
  · exact meets_ran rfl sound
  · rename_i valid
    exact meets_free_then sound valid fun t kept _ _ _ => meets_ran rfl (sound_error kept .none)

theorem meets_db_close (sound : Sound lost s) {id : Nat} {stmt : Stmt}
    (here : s.stmts id = some stmt) :
    Meets (fun u => u = s) (dbClose id stmt) (fun _ t => Sound lost t) (fun _ _ => False) := by
  have usable := sound.handles.stmts id stmt here
  refine meets_read fun u same => ?_
  subst same
  split
  · exact meets_ran rfl sound
  · rename_i valid
    exact meets_free_then sound valid fun t kept _ _ _ =>
      meets_ran rfl (sound_stmt kept id { stmt with closed := true } usable)

/-- The session behind `pgsql_drv_disconnect`. -/
def disconnected (s : Session) : Session :=
  { s with finished := Function.update s.finished s.conn true }

theorem disconnect_run (usable : Usable s) : pgsqlDrvDisconnect s = .ok () (disconnected s) := by
  have open_ : s.finished s.conn = false := usable
  have used : useConn s = .ok () s := by
    show (if s.finished s.conn = true then throw Fault.finished else pure () : Driver Unit) s = _
    rw [open_]
    rfl
  show EStateM.bind useConn _ s = _
  rw [EStateM.bind, used]
  rfl

theorem later_unfinished (sound : Sound lost s) {id : Nat} (beyond : s.conns ≤ id) :
    (disconnected s).finished id = false := by
  have different : id ≠ s.conn := fun same => by
    subst same
    exact absurd beyond (Nat.not_le.mpr sound.handles.conns.1)
  exact (Function.update_of_ne different _ _).trans (sound.handles.conns.2 id beyond)

theorem invalid_sound (sound : Sound lost s) (ready : s.state = .ready) :
    Sound lost { disconnected s with state := .invalid } where
  handles := { sound.handles with
    conns := ⟨sound.handles.conns.1, fun _ beyond => later_unfinished sound beyond⟩ }
  usable := fun valid => absurd rfl valid
  opened := nofun
  shut := fun _ => sound.shut (by rw [ready]; decide)

theorem meets_db_connection_close (sound : Sound lost s) :
    Meets (fun u => u = s) dbConnectionClose (fun _ t => Sound lost t) (fun _ _ => False) := by
  refine meets_read fun u same => ?_
  subst same
  split
  · exact meets_ran rfl sound
  · rename_i valid
    refine meets_free_then sound valid fun t kept ready _ _ => ?_
    have usable := kept.usable (by rw [ready]; decide)
    exact meets_run (disconnect_run usable) (meets_ran rfl (invalid_sound kept ready))

theorem meets_db_connection_reconnect (sound : Sound lost s) (connects : Bool) :
    Meets (fun u => u = s) (dbConnectionReconnect connects) (fun _ t => Sound lost t)
      (fun _ _ => False) := by
  refine meets_read fun u same => ?_
  subst same
  split
  · exact meets_ran rfl sound
  · rename_i valid
    refine meets_free_then sound valid fun t kept ready _ _ => ?_
    have usable := kept.usable (by rw [ready]; decide)
    have tried : pgsqlDrvReconnect connects t = if connects then
        .ok .ignorable { disconnected t with conn := t.conns, conns := t.conns + 1 }
        else .ok .fatal (disconnected t) := by
      show EStateM.bind pgsqlDrvDisconnect _ t = _
      rw [EStateM.bind, disconnect_run usable]
      cases connects <;> rfl
    cases connects with
    | false => exact meets_run tried (meets_ran rfl (invalid_sound kept ready))
    | true =>
        refine meets_run tried (meets_ran rfl ?_)
        exact {
          handles := { kept.handles with
            conns := ⟨Nat.lt_succ_self _, fun id beyond =>
              later_unfinished kept (Nat.le_of_succ_le beyond)⟩ }
          usable := fun _ => later_unfinished kept (Nat.le_refl _)
          opened := nofun
          shut := fun _ => kept.shut (by rw [ready]; decide) }
end Sessions

/-! Runs. -/
section Runs
variable {lost : Set Nat} {usePs : Bool} {r u : Run}

/-- Where a command is sent, an error comes with its SQL state and message, an execution with
parameters that are bound and have their places, and a text that is built from is not empty. -/
def Proper (usePs : Bool) (r : Run) : Call → Prop
  | .prepare text _ => Buffered usePs r.session text
  | .query reply => r.session.state ≠ .invalid → Described reply
  | .execute id contents reply => ∀ stmt, openStmt r.session id = some stmt →
      r.session.state ≠ .invalid → Described reply ∧ Filled stmt contents
  | _ => True

/-- A status that `pgsql_check_status` has no branch for. -/
def Unknown : Reply → Prop
  | .other => True
  | _ => False

/-- A result is left as it is: of an unknown status, or of a PQprepare that fails in
`bind_param`. -/
def Leaves (s : Session) : Call → Prop
  | .query reply | .execute _ _ reply => s.state ≠ .invalid ∧ Unknown reply
  | .bindParam id types reply => ∃ stmt, openStmt s id = some stmt ∧ bindLoses s stmt types reply
  | _ => False

theorem open_stmt_spec {s : Session} {id : Nat} {stmt : Stmt} (here : openStmt s id = some stmt) :
    s.stmts id = some stmt :=
  (Option.filter_eq_some_iff.mp here).1

theorem lost_to (s : Session) (reply : Reply) :
    lostTo s reply = {n | n = s.results ∧ s.state ≠ .invalid ∧ Unknown reply} := by
  unfold lostTo
  by_cases invalid : s.state = .invalid <;> cases reply <;>
    simp [invalid, lostBy, Unknown]

/-- One call meets no fault and loses the result it leaves. -/
theorem perform_sound (sound : Sound lost r.session) (call : Call)
    (proper : Proper usePs r call) {script : Driver Unit}
    (made : perform usePs r.session call = some script) :
    Meets (fun s => s = r.session) script
      (fun _ s => Sound (lost ∪ {n | n = r.session.results ∧ Leaves r.session call}) s)
      (fun _ _ => False) := by
  have nothing (never : ¬ Leaves r.session call) :
      lost ∪ {n | n = r.session.results ∧ Leaves r.session call} = lost := by
    simp [never]
  cases call with
  | prepare text reply =>
      obtain rfl := Option.some.inj made
      rw [nothing fun never => never]
      exact meets_db_prepare sound usePs text reply proper
  | bindParam id types reply =>
      obtain ⟨stmt, open_, rfl⟩ := Option.map_eq_some_iff.mp made
      have same : Leaves r.session (.bindParam id types reply) ↔
          bindLoses r.session stmt types reply := by
        simp [Leaves, open_]
      rw [same]
      exact meets_bind (meets_db_bind_param sound (open_stmt_spec open_) types reply)
        fun _ => meets_pure () fun _ ended => ended
  | execute id contents reply =>
      obtain ⟨stmt, open_, rfl⟩ := Option.map_eq_some_iff.mp made
      have sent := meets_db_execute sound (open_stmt_spec open_) reply (proper stmt open_)
      rwa [lost_to] at sent
  | query reply =>
      obtain rfl := Option.some.inj made
      have sent := meets_db_query sound reply proper
      rwa [lost_to] at sent
  | fetchRow =>
      obtain rfl := Option.some.inj made
      rw [nothing fun never => never]
      exact meets_fetch sound
  | freeResults =>
      obtain rfl := Option.some.inj made
      rw [nothing fun never => never]
      exact meets_bind (meets_db_free_results sound) fun _ => meets_pure () fun _ ended => ended
  | nextResult =>
      obtain rfl := Option.some.inj made
      rw [nothing fun never => never]
      exact meets_db_next_result sound
  | stmtNextResult id =>
      obtain ⟨stmt, open_, rfl⟩ := Option.map_eq_some_iff.mp made
      rw [nothing fun never => never]
      exact meets_db_stmt_next_result sound
  | close id =>
      obtain ⟨stmt, open_, rfl⟩ := Option.map_eq_some_iff.mp made
      rw [nothing fun never => never]
      exact meets_db_close sound (open_stmt_spec open_)
  | closeConnection =>
      obtain rfl := Option.some.inj made
      rw [nothing fun never => never]
      exact meets_db_connection_close sound
  | reconnect connects =>
      obtain rfl := Option.some.inj made
      rw [nothing fun never => never]
      exact meets_db_connection_reconnect sound connects

theorem step_sound (sound : Sound lost r.session) (call : Call)
    (proper : Proper usePs r call) (taken : step usePs r call = some u) :
    u.fault = none ∧
      Sound (lost ∪ {n | n = r.session.results ∧ Leaves r.session call}) u.session := by
  obtain ⟨_, made⟩ := Option.ite_none_left_eq_some.mp taken
  obtain ⟨script, performed, rfl⟩ := Option.map_eq_some_iff.mp made
  have meets := perform_sound sound call proper performed
  cases ended : script r.session with
  | ok value s => exact ⟨rfl, meets_ok meets rfl ended⟩
  | error fault s => exact (meets_error meets rfl ended).elim

theorem step_from_running {call : Call} (taken : step usePs r call = some u) : r.fault = none :=
  not_not.mp (Option.ite_none_left_eq_some.mp taken).1

/-- No memory fault; the connection in use is not a finished one, and of each result set
the rows were handed out in order. -/
structure Safe (r : Run) : Prop where
  fault : r.fault = none
  connection : r.session.state ≠ .invalid → r.session.finished r.session.conn = false
  rows : ∀ id, InOrder (r.session.shape id) (r.session.fetched id)

/-- A call that is not proper makes a fault. -/
theorem improper_faults (sound : Sound lost r.session) (call : Call)
    (improper : ¬ Proper usePs r call) (taken : step usePs r call = some u) : u.fault ≠ none := by
  obtain ⟨_, made⟩ := Option.ite_none_left_eq_some.mp taken
  obtain ⟨script, performed, rfl⟩ := Option.map_eq_some_iff.mp made
  have throws : Meets (fun s => s = r.session) script (fun _ _ => False) (fun _ _ => True) := by
    cases call with
    | prepare text reply =>
        obtain rfl := Option.some.inj performed
        exact meets_db_prepare_faults reply improper
    | query reply =>
        obtain rfl := Option.some.inj performed
        obtain ⟨valid, bare⟩ := Classical.not_imp.mp improper
        exact meets_db_query_faults sound valid bare
    | execute id contents reply =>
        obtain ⟨stmt, open_, rfl⟩ := Option.map_eq_some_iff.mp performed
        have known : ¬ (r.session.state ≠ .invalid → Described reply ∧ Filled stmt contents) := by
          intro proper
          refine improper fun other also => ?_
          obtain rfl := Option.some.inj (open_.symm.trans also)
          exact proper
        obtain ⟨valid, bare⟩ := Classical.not_imp.mp known
        exact meets_db_execute_faults sound valid (open_stmt_spec open_) bare
    | _ => exact absurd trivial improper
  cases ended : script r.session with
  | ok value s => exact (meets_ok throws rfl ended).elim
  | error fault s => exact nofun

/-- What calls keep while they are proper. -/
def Intact (r : Run) : Prop := r.fault = none ∧ ∃ lost, Sound lost r.session

/-- A string of 256 bytes has its terminator behind the buffer, an empty text has no buffer. -/
example :
    let bound : List Call := [.prepare [63] (.commandOk 0), .bindParam 0 [.string] (.commandOk 0),
      .execute 0 (fun _ => ⟨false, 256, true⟩) (.commandOk 1)]
    (run (step true) ⟨connected, none⟩ bound).map Run.fault = some (some .outside) ∧
    (run (step true) ⟨connected, none⟩ [.prepare [] (.commandOk 0)]).map Run.fault =
      some (some .nullPointer) := by decide +kernel

/-- The only result not cleared is that of the set that is open. -/
def AllCleared (r : Run) : Prop :=
  ∀ id < r.session.results, r.session.cleared id = false →
    r.session.state = .resultSet ∧ r.session.rs.ptr = some id

/-- Where there has been no fault, nothing is lost. -/
def Lossless (r : Run) : Prop := r.fault = none → Sound ∅ r.session

/-- As long as there has been no fault, every result but the open one is cleared, exactly if
no proper call leaves one. -/
theorem results_cleared_iff (usePs : Bool) (schedule : List Call) :
    Always (step usePs) (fun r => r.fault = none → AllCleared r) ⟨connected, none⟩ schedule ↔
      Guarded (step usePs) (fun r call => Proper usePs r call → ¬ Leaves r.session call)
        ⟨connected, none⟩ schedule := by
  have start : Lossless ⟨connected, none⟩ := fun _ => connected_sound
  have safe (r : Run) : Lossless r → r.fault = none → AllCleared r := by
    intro kept fault id below live
    have sound := kept fault
    have here := ((sound.handles.live id).mp ⟨below, live⟩).resolve_right fun member => member
    refine ⟨?_, here⟩
    by_contra closed
    rw [(sound.shut closed).ptr] at here
    cases here
  have preserved (r : Run) (call : Call) (u : Run) : Lossless r →
      (Proper usePs r call → ¬ Leaves r.session call) → step usePs r call = some u →
      Lossless u := by
    intro kept clears taken fault
    have sound := kept (step_from_running taken)
    by_cases proper : Proper usePs r call
    · have after := (step_sound sound call proper taken).2
      simpa [clears proper] using after
    · exact absurd fault (improper_faults sound call proper taken)
  have needed (r : Run) (call : Call) (u : Run) : Lossless r → step usePs r call = some u →
      (u.fault = none → AllCleared u) → Proper usePs r call → ¬ Leaves r.session call := by
    intro kept taken cleared proper leaves
    have sound := kept (step_from_running taken)
    obtain ⟨fault, after⟩ := step_sound sound call proper taken
    have lost : r.session.results ∈ ∅ ∪ {n | n = r.session.results ∧ Leaves r.session call} :=
      .inr ⟨rfl, leaves⟩
    obtain ⟨below, live⟩ := (after.handles.live r.session.results).mpr (.inr lost)
    exact after.handles.apart _ (cleared fault _ below live).2 lost
  exact always_iff_guarded safe preserved needed _ schedule start

/-- A SELECT with a string, read to its end, and a command with a status of its own kind. -/
def selectThenCopy : List Call :=
  [.prepare [63] (.commandOk 0), .bindParam 0 [.string] (.commandOk 0),
    .execute 0 (fun _ => ⟨false, 255, false⟩) (.tuplesOk 2 1), .fetchRow, .fetchRow, .fetchRow,
    .query .other, .closeConnection]

/-- The result of the last command is left. -/
example :
    (run (step true) ⟨connected, none⟩ selectThenCopy).map
      (fun r => (r.fault, r.session.results, (List.range 3).map r.session.cleared)) =
      some (none, 3, [true, true, false]) := by decide +kernel
end Runs
end PteSysbench.PgSessions
