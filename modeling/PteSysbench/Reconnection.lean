import PteSysbench.ResultSets

/-!
One MySQL connection that may lose its server: the calls of db_driver.c over
drv_mysql.c. The server is connected to again in `db_connection_reconnect` and inside
`check_error`; only the first of the two looks after `con->state`. Answers of the
client library are inputs.
-/

namespace PteSysbench.Reconnection

open ActionSystem DbDriver

/-- The connection with the counters of its thread. History: `closes` are the calls of
`mysql_close` since the last successful `mysql_real_connect`, `connects` all of the
latter; `usedClosed`: a closed handle was passed to the client library, other than to
open it again. -/
structure Connection where
  state : ConnState
  error : DbError
  counter : Counter
  stmts : List ResultSets.Statement
  counts : Counter → UInt64
  closes : Nat
  connects : Nat
  usedClosed : Bool
  freed : Bool

/-- A value of --mysql-ignore-errors: the text "all", or what `atoi` makes of it. -/
inductive IgnoredError where
  | all
  | code (value : UInt32)

structure Args where
  ignoredErrors : List IgnoredError
  usePs : Bool

/-! Answers of the client library. -/
section Answers

/-- One turn of the loop in `mysql_drv_reconnect`: whether `mysql_real_connect`
succeeds, and whether `sb_globals.error` is set where it does not. -/
inductive Attempt where
  | connected
  | refused
  | aborted

/-- Whether the loop ends with a connection; none while it goes on. -/
def reconnects : List Attempt → Option Bool
  | [] => none
  | .connected :: _ => some true
  | .aborted :: _ => some false
  | .refused :: rest => reconnects rest

/-- What a driver function makes of the answers to a command. -/
inductive Answer where
  | error (errno : UInt32)
  | noRows (affected : UInt64)
  | rows

/-- `mysql_real_query` and, where it succeeds, `mysql_store_result`. -/
structure QueryReply where
  failed : Bool
  stored : Bool
  errno : UInt32
  fieldCount : UInt32
  affectedRows : UInt64

def QueryReply.answer (reply : QueryReply) : Answer :=
  if reply.failed then .error reply.errno
  else if reply.stored then .rows
  else if reply.errno = 0 ∧ reply.fieldCount = 0 then .noRows reply.affectedRows
  else .error reply.errno

/-- `mysql_stmt_execute` and, where it succeeds, `mysql_stmt_store_result`. `errno` is
that of the connection. The error of a statement is zero after a call that succeeds. -/
structure StmtReply where
  failed : Bool
  storeFailed : Bool
  errno : UInt32
  stmtErrno : UInt32
  fieldCount : UInt32
  affectedRows : UInt64
  cleared : storeFailed = false → stmtErrno = 0

def StmtReply.answer (reply : StmtReply) : Answer :=
  if reply.failed then .error reply.errno
  else if reply.storeFailed then .error reply.errno
  else if reply.stmtErrno = 0 ∧ reply.fieldCount = 0 then .noRows reply.affectedRows
  else .rows

/-- An emulated statement is sent as a query once its text has been built. -/
inductive ExecuteReply where
  | noMemory
  | query (reply : QueryReply)
  | stmt (reply : StmtReply)
end Answers

/-! The driver. -/
section Driver

/-- The handle is an argument of a call of the client library. -/
def passHandle (con : Connection) : Connection :=
  { con with usedClosed := con.usedClosed || con.closes ≠ 0 }

def mysqlClose (con : Connection) : Connection :=
  { passHandle con with closes := con.closes + 1 }

def connectedAgain (con : Connection) : Connection :=
  { con with closes := 0, connects := con.connects + 1 }

def mysqlDrvReconnect (con : Connection) (attempts : List Attempt) :
    Option (Connection × DbError) :=
  (reconnects attempts).map fun connected =>
    if connected then (connectedAgain (mysqlClose con), .ignorable) else (mysqlClose con, .fatal)

def ignoredError (args : Args) (error : UInt32) : Bool :=
  args.ignoredErrors.any fun
    | .all => true
    | .code value => error = value

/-- CR_SERVER_LOST, CR_SERVER_GONE_ERROR, CR_TCP_CONNECTION, CR_SERVER_LOST_EXTENDED. -/
def lostError (error : UInt32) : Bool :=
  error = 2013 || error = 2006 || error = 2011 || error = 2055

def checkError (args : Args) (con : Connection) (error : UInt32) (attempts : List Attempt) :
    Option (Connection × DbError) :=
  let con := passHandle con
  if ignoredError args error then
    if lostError error then mysqlDrvReconnect { con with counter := .reconnect } attempts
    else some ({ con with counter := .error }, .ignorable)
  else some ({ con with counter := .error }, .fatal)

/-- `nrows` has 32 bits. -/
def conclude (args : Args) (con : Connection) (attempts : List Attempt) :
    Answer → Option (Connection × DbError)
  | .error errno => checkError args con errno attempts
  | .noRows affected =>
      let nrows := affected.toUInt32
      some ({ con with counter := if 0 < nrows then .write else .other }, .none)
  | .rows => some ({ con with counter := .read }, .none)

def mysqlDrvQuery (args : Args) (con : Connection) (reply : QueryReply)
    (attempts : List Attempt) : Option (Connection × DbError) :=
  conclude args (passHandle con) attempts reply.answer

/-- Without memory for the text of an emulated statement, and for a statement that has
not been initialized, `rs->counter` is left as it is. -/
def mysqlDrvExecute (args : Args) (con : Connection) (stmt : ResultSets.Statement)
    (attempts : List Attempt) : ExecuteReply → Option (Connection × DbError)
  | .noMemory => if stmt.emulated then some (con, .fatal) else none
  | .query reply => if stmt.emulated then mysqlDrvQuery args con reply attempts else none
  | .stmt reply =>
      if stmt.emulated then none
      else if stmt.handle then conclude args con attempts reply.answer
      else some (con, .fatal)

def mysqlDrvDisconnect (con : Connection) : Connection := mysqlClose con

/-- `mysql_stmt_init` and `mysql_errno` take the handle, the emulation calls nothing. -/
def mysqlDrvPrepare (args : Args) (con : Connection) (reply : ResultSets.PrepareReply) :
    Connection × Option ResultSets.Statement :=
  (if args.usePs then passHandle con else con,
    ResultSets.mysqlDrvPrepare ⟨args.usePs, false⟩ reply)
end Driver

/-! The database layer. -/
section Layer

/-- A result set is freed without the handle. -/
def freedFirst (con : Connection) : Connection :=
  if con.state = .resultSet then { con with state := .ready } else con

def sbCounterInc (con : Connection) (counter : Counter) : Connection :=
  { con with counts := Function.update con.counts counter (con.counts counter + 1) }

/-- What `db_query` and `db_execute` do behind the driver's operation. -/
def finish (outcome : Connection × DbError) : Connection :=
  let con := sbCounterInc { outcome.1 with error := outcome.2 } outcome.1.counter
  if outcome.2 = .none then
    { con with state := if con.counter = .read then .resultSet else .ready }
  else con

def dbQuery (args : Args) (con : Connection) (reply : QueryReply) (attempts : List Attempt) :
    Option Connection :=
  if con.state = .invalid then some { con with error := .fatal }
  else (mysqlDrvQuery args (freedFirst con) reply attempts).map finish

def dbExecute (args : Args) (con : Connection) (stmt : ResultSets.Statement)
    (reply : ExecuteReply) (attempts : List Attempt) : Option Connection :=
  if con.state = .invalid then some con
  else (mysqlDrvExecute args (freedFirst con) stmt attempts reply).map finish

def dbPrepare (args : Args) (con : Connection) (reply : ResultSets.PrepareReply) : Connection :=
  if con.state = .invalid then con
  else
    match mysqlDrvPrepare args con reply with
    | (con, none) => { con with error := .fatal }
    | (con, some stmt) => { con with stmts := con.stmts ++ [stmt] }

def dbConnectionReconnect (con : Connection) (attempts : List Attempt) : Option Connection :=
  if con.state = .invalid then some con
  else (mysqlDrvReconnect (freedFirst con) attempts).map fun outcome =>
    if outcome.2 = .fatal then sbCounterInc { outcome.1 with state := .invalid } .error
    else sbCounterInc { outcome.1 with state := .ready } .reconnect

def dbConnectionClose (con : Connection) : Connection :=
  if con.state = .invalid then con
  else { mysqlDrvDisconnect (freedFirst con) with state := .invalid }

def dbConnectionFree (con : Connection) : Connection :=
  let con := if con.state = .invalid then con else dbConnectionClose con
  { con with freed := true }

inductive Call where
  | query (reply : QueryReply) (attempts : List Attempt)
  | execute (id : Nat) (reply : ExecuteReply) (attempts : List Attempt)
  | prepare (reply : ResultSets.PrepareReply)
  | reconnect (attempts : List Attempt)
  | close
  | free

/-- A call that does not return, or that a caller cannot make, is no step. -/
def step (args : Args) (con : Connection) (call : Call) : Option Connection :=
  if con.freed then none
  else
    match call with
    | .query reply attempts => dbQuery args con reply attempts
    | .execute id reply attempts =>
        con.stmts[id]?.bind fun stmt => dbExecute args con stmt reply attempts
    | .prepare reply => some (dbPrepare args con reply)
    | .reconnect attempts => dbConnectionReconnect con attempts
    | .close => some (dbConnectionClose con)
    | .free => some (dbConnectionFree con)

/-- After `db_connection_create`, in a thread that has counted before. -/
def created (counts : Counter → UInt64) : Connection :=
  { state := .ready, error := .none, counter := .other, stmts := [], counts := counts
    closes := 0, connects := 1, usedClosed := false, freed := false }
end Layer

/-! What one command does. -/
section Commands
variable {args : Args} {con t : Connection}

/-- The answer that a query or an execution of a valid connection ends with, and the
attempts to connect again that it may take. -/
def answerOf (con : Connection) : Call → Option (Answer × List Attempt)
  | .query reply attempts => some (reply.answer, attempts)
  | .execute id (.query reply) attempts =>
      (con.stmts[id]?.filter (·.emulated)).map fun _ => (reply.answer, attempts)
  | .execute id (.stmt reply) attempts =>
      (con.stmts[id]?.filter fun stmt => !stmt.emulated && stmt.handle).map fun _ =>
        (reply.answer, attempts)
  | _ => none

theorem freed_first_state (valid : con.state ≠ .invalid) : (freedFirst con).state = .ready := by
  unfold freedFirst
  cases state : con.state with
  | ready => simp [state]
  | resultSet => simp
  | invalid => exact absurd state valid

/-- Freeing a result set changes the state only. -/
theorem freed_first_eq (con : Connection) :
    freedFirst con = { con with state := (freedFirst con).state } := by
  unfold freedFirst
  split <;> rfl

theorem freed_first_of_valid (valid : con.state ≠ .invalid) :
    freedFirst con = { con with state := .ready } := by
  rw [freed_first_eq, freed_first_state valid]

/-- An open handle may be passed on. -/
theorem pass_open_handle (open_ : con.closes = 0) : passHandle con = con := by
  have closed : (con.usedClosed || con.closes ≠ 0) = con.usedClosed := by
    simp [open_]
  unfold passHandle
  rw [closed]

/-- The three ways out of `check_error`. -/
theorem check_error_cases (error : UInt32) (attempts : List Attempt)
    (outcome : Connection × DbError) (checked : checkError args con error attempts = some outcome) :
    (¬ (ignoredError args error ∧ lostError error) ∧ outcome.2 ≠ .none ∧
      outcome.1 = { passHandle con with counter := .error }) ∨
    (ignoredError args error ∧ lostError error ∧ reconnects attempts = some true ∧
      outcome = (connectedAgain (mysqlClose { passHandle con with counter := .reconnect }),
        .ignorable)) ∨
    (ignoredError args error ∧ lostError error ∧ reconnects attempts = some false ∧
      outcome = (mysqlClose { passHandle con with counter := .reconnect }, .fatal)) := by
  unfold checkError at checked
  by_cases ignored : ignoredError args error
  · rw [if_pos ignored] at checked
    by_cases lost : lostError error
    · rw [if_pos lost] at checked
      obtain ⟨connected, ended, result⟩ := Option.map_eq_some_iff.mp checked
      subst result
      cases connected with
      | true => exact Or.inr (Or.inl ⟨ignored, lost, ended, rfl⟩)
      | false => exact Or.inr (Or.inr ⟨ignored, lost, ended, rfl⟩)
    · rw [if_neg lost] at checked
      obtain rfl := Option.some.inj checked
      exact Or.inl ⟨fun both => lost both.2, by simp, rfl⟩
  · rw [if_neg ignored] at checked
    obtain rfl := Option.some.inj checked
    exact Or.inl ⟨fun both => ignored both.1, by simp, rfl⟩

/-- A command of a valid connection is its answer's conclusion, whatever kind of
statement it belongs to. -/
theorem command_concludes (call : Call) (answer : Answer) (attempts : List Attempt)
    (valid : con.state ≠ .invalid) (answered : answerOf con call = some (answer, attempts))
    (taken : step args con call = some t) :
    ∃ used outcome, conclude args { con with state := .ready, usedClosed := used } attempts
        answer = some outcome ∧ t = finish outcome ∧
      (con.closes = 0 → used = con.usedClosed) := by
  obtain ⟨_, taken⟩ := Option.ite_none_left_eq_some.mp taken
  have passed : passHandle { con with state := .ready } =
      { con with state := .ready, usedClosed := con.usedClosed || con.closes ≠ 0 } := rfl
  -- a handle that was never closed is passed on alive
  have untouched : con.closes = 0 → (con.usedClosed || con.closes ≠ 0) = con.usedClosed := by
    intro open_
    simp [open_]
  cases call with
  | query reply tries =>
      obtain ⟨rfl, rfl⟩ := Prod.mk.inj (Option.some.inj answered)
      simp only [dbQuery, if_neg valid, freed_first_of_valid valid, mysqlDrvQuery, passed] at taken
      obtain ⟨outcome, concluded, rfl⟩ := Option.map_eq_some_iff.mp taken
      exact ⟨_, outcome, concluded, rfl, untouched⟩
  | execute id reply tries =>
      obtain ⟨stmt, known, taken⟩ := Option.bind_eq_some_iff.mp taken
      simp only [dbExecute, if_neg valid, freed_first_of_valid valid] at taken
      obtain ⟨outcome, executed, rfl⟩ := Option.map_eq_some_iff.mp taken
      cases reply with
      | noMemory => cases answered
      | query reply =>
          obtain ⟨_, kind, same⟩ := Option.map_eq_some_iff.mp answered
          obtain ⟨rfl, rfl⟩ := Prod.mk.inj same
          obtain ⟨known_, emulated⟩ := Option.filter_eq_some_iff.mp kind
          obtain rfl := Option.some.inj (known.symm.trans known_)
          simp only [mysqlDrvExecute, emulated, if_true, mysqlDrvQuery, passed] at executed
          exact ⟨_, outcome, executed, rfl, untouched⟩
      | stmt reply =>
          obtain ⟨_, kind, same⟩ := Option.map_eq_some_iff.mp answered
          obtain ⟨rfl, rfl⟩ := Prod.mk.inj same
          obtain ⟨known_, prepared⟩ := Option.filter_eq_some_iff.mp kind
          obtain rfl := Option.some.inj (known.symm.trans known_)
          obtain ⟨server, handle⟩ := Bool.and_eq_true_iff.mp prepared
          have server_ : stmt.emulated = false := by simpa using server
          simp only [mysqlDrvExecute, server_, handle, Bool.false_eq_true, if_true,
            if_false] at executed
          exact ⟨con.usedClosed, outcome, executed, rfl, fun _ => rfl⟩
  | prepare | reconnect | close | free => cases answered

/-- An execution that sends nothing fails with the counter of the call before. -/
theorem nothing_sent (id : Nat) (reply : ExecuteReply) (attempts : List Attempt)
    (valid : con.state ≠ .invalid) (unanswered : answerOf con (.execute id reply attempts) = none)
    (taken : step args con (.execute id reply attempts) = some t) :
    t = finish ({ con with state := .ready }, .fatal) ∧
      ∃ stmt, con.stmts[id]? = some stmt ∧
        (reply = .noMemory ∨ stmt.emulated = false ∧ stmt.handle = false) := by
  obtain ⟨_, taken⟩ := Option.ite_none_left_eq_some.mp taken
  obtain ⟨stmt, known, taken⟩ := Option.bind_eq_some_iff.mp taken
  simp only [dbExecute, if_neg valid, freed_first_of_valid valid] at taken
  obtain ⟨outcome, executed, rfl⟩ := Option.map_eq_some_iff.mp taken
  cases reply with
  | noMemory =>
      obtain ⟨_, executed⟩ := Option.ite_none_right_eq_some.mp executed
      obtain rfl := Option.some.inj executed
      exact ⟨rfl, stmt, known, Or.inl rfl⟩
  | query reply =>
      obtain ⟨emulated, _⟩ := Option.ite_none_right_eq_some.mp executed
      simp [answerOf, known, Option.filter, emulated] at unanswered
  | stmt reply =>
      obtain ⟨emulated, executed⟩ := Option.ite_none_left_eq_some.mp executed
      by_cases handle : stmt.handle
      · simp [answerOf, known, Option.filter, emulated, handle] at unanswered
      · rw [if_neg handle] at executed
        obtain rfl := Option.some.inj executed
        exact ⟨rfl, stmt, known, Or.inr ⟨by simpa using emulated, by simpa using handle⟩⟩

/-- On an invalid connection a call may set the error and free the memory. -/
theorem refused_changes (call : Call) (invalid : con.state = .invalid)
    (taken : step args con call = some t) :
    t = { con with error := t.error, freed := t.freed } := by
  obtain ⟨_, taken⟩ := Option.ite_none_left_eq_some.mp taken
  cases call with
  | query reply attempts =>
      simp only [dbQuery, if_pos invalid] at taken
      obtain rfl := Option.some.inj taken
      rfl
  | execute id reply attempts =>
      obtain ⟨stmt, _, taken⟩ := Option.bind_eq_some_iff.mp taken
      simp only [dbExecute, if_pos invalid] at taken
      obtain rfl := Option.some.inj taken
      rfl
  | prepare reply =>
      simp only [dbPrepare, if_pos invalid] at taken
      obtain rfl := Option.some.inj taken
      rfl
  | reconnect attempts =>
      simp only [dbConnectionReconnect, if_pos invalid] at taken
      obtain rfl := Option.some.inj taken
      rfl
  | close =>
      simp only [dbConnectionClose, if_pos invalid] at taken
      obtain rfl := Option.some.inj taken
      rfl
  | free =>
      simp only [dbConnectionFree, if_pos invalid] at taken
      obtain rfl := Option.some.inj taken
      rfl
end Commands

/-! Handles that have been closed. -/
section DeadHandles
variable {args : Args} {s t : Connection}

/-- A closed handle is not used other than to open it again, it is closed once, and the
state says so. -/
structure DeadHandleUnused (con : Connection) : Prop where
  invalid : con.closes ≠ 0 → con.state = .invalid
  untouched : con.usedClosed = false
  once : con.closes ≤ 1

/-- `check_error` tries to connect again, and fails. -/
def ReconnectionFails (args : Args) (answer : Answer) (attempts : List Attempt) : Prop :=
  ∃ errno, answer = .error errno ∧ ignoredError args errno ∧ lostError errno ∧
    reconnects attempts = some false

/-- Connecting again inside `check_error` does not fail. -/
def ReconnectionHolds (args : Args) (con : Connection) (call : Call) : Prop :=
  con.state ≠ .invalid → ∀ answer attempts, answerOf con call = some (answer, attempts) →
    ¬ ReconnectionFails args answer attempts

theorem open_when_valid (sound : DeadHandleUnused s) (valid : s.state ≠ .invalid) :
    s.closes = 0 := by
  by_contra closed
  exact valid (sound.invalid closed)

theorem unused_of_open (open_ : s.closes = 0) (untouched : s.usedClosed = false) :
    DeadHandleUnused s :=
  ⟨fun closed => absurd open_ closed, untouched, by omega⟩

/-- A driver operation with the handle open, seen from the database layer. -/
theorem finish_handle (outcome : Connection × DbError) :
    (finish outcome).closes = outcome.1.closes ∧
      (finish outcome).usedClosed = outcome.1.usedClosed ∧
      (outcome.2 ≠ .none → (finish outcome).state = outcome.1.state) := by
  unfold finish
  split
  · exact ⟨rfl, rfl, fun failed => absurd ‹_› failed⟩
  · exact ⟨rfl, rfl, fun _ => rfl⟩

/-- A command leaves the handle open exactly when connecting again has not failed. -/
theorem command_handle (call : Call) (answer : Answer) (attempts : List Attempt)
    (sound : DeadHandleUnused s) (valid : s.state ≠ .invalid)
    (answered : answerOf s call = some (answer, attempts)) (taken : step args s call = some t) :
    (¬ ReconnectionFails args answer attempts ∧ t.closes = 0 ∧ t.usedClosed = false) ∨
      (ReconnectionFails args answer attempts ∧ t.closes = 1 ∧ t.state = .ready) := by
  obtain ⟨used, outcome, concluded, rfl, used_⟩ :=
    command_concludes call answer attempts valid answered taken
  obtain ⟨closes, usedClosed, state⟩ := finish_handle outcome
  have open_ := open_when_valid sound valid
  have unused : used = false := (used_ open_).trans sound.untouched
  subst unused
  rw [closes, usedClosed]
  cases answer with
  | rows =>
      obtain rfl := Option.some.inj concluded
      refine Or.inl ⟨?_, open_, rfl⟩
      rintro ⟨_, error, _⟩
      cases error
  | noRows affected =>
      obtain rfl := Option.some.inj concluded
      refine Or.inl ⟨?_, open_, rfl⟩
      rintro ⟨_, error, _⟩
      cases error
  | error errno =>
      obtain ⟨not, _, same⟩ | ⟨_, _, ended, same⟩ | ⟨ignored, lost, ended, same⟩ :=
        check_error_cases errno attempts outcome concluded
      · refine Or.inl ⟨?_, by simp [same, passHandle, open_]⟩
        rintro ⟨_, this, ignored, lost, _⟩
        cases this
        exact not ⟨ignored, lost⟩
      · refine Or.inl ⟨?_, by simp [same, connectedAgain, mysqlClose, passHandle, open_]⟩
        rintro ⟨_, _, _, _, failed⟩
        exact absurd (ended.symm.trans failed) (by decide)
      · have failed : outcome.2 ≠ .none := by simp [same]
        refine Or.inr ⟨⟨errno, rfl, ignored, lost, ended⟩, ?_, ?_⟩
        · simp [same, mysqlClose, passHandle, open_]
        · rw [state failed, same]
          rfl

/-- What happens to the handle in a call that is no command. -/
theorem other_calls_sound (call : Call) (sound : DeadHandleUnused s) (valid : s.state ≠ .invalid)
    (unanswered : answerOf s call = none) (taken : step args s call = some t) :
    DeadHandleUnused t := by
  have open_ := open_when_valid sound valid
  have untouched := sound.untouched
  have passed := pass_open_handle open_
  have freed := freed_first_of_valid valid
  cases call with
  | query reply attempts => cases unanswered
  | execute id reply attempts =>
      obtain ⟨rfl, _⟩ := nothing_sent id reply attempts valid unanswered taken
      obtain ⟨closes, usedClosed, _⟩ := finish_handle ({ s with state := .ready }, .fatal)
      exact unused_of_open (closes.trans open_) (usedClosed.trans untouched)
  | prepare reply =>
      obtain ⟨_, taken⟩ := Option.ite_none_left_eq_some.mp taken
      obtain rfl := Option.some.inj taken
      simp only [dbPrepare, if_neg valid, mysqlDrvPrepare, passed, ite_self]
      cases ResultSets.mysqlDrvPrepare ⟨args.usePs, false⟩ reply with
      | none => exact unused_of_open open_ untouched
      | some stmt => exact unused_of_open open_ untouched
  | reconnect attempts =>
      obtain ⟨_, taken⟩ := Option.ite_none_left_eq_some.mp taken
      simp only [dbConnectionReconnect, if_neg valid, freed] at taken
      obtain ⟨outcome, tried, rfl⟩ := Option.map_eq_some_iff.mp taken
      obtain ⟨connected, _, rfl⟩ := Option.map_eq_some_iff.mp tried
      cases connected with
      | true => exact unused_of_open rfl (by simp [connectedAgain, mysqlClose, passHandle,
          sbCounterInc, open_, untouched])
      | false => exact ⟨fun _ => rfl, by simp [mysqlClose, passHandle, sbCounterInc, open_,
          untouched], by simp [mysqlClose, passHandle, sbCounterInc, open_]⟩
  | close =>
      obtain ⟨_, taken⟩ := Option.ite_none_left_eq_some.mp taken
      obtain rfl := Option.some.inj taken
      simp only [dbConnectionClose, if_neg valid, freed]
      exact ⟨fun _ => rfl, by simp [mysqlDrvDisconnect, mysqlClose, passHandle, open_, untouched],
        by simp [mysqlDrvDisconnect, mysqlClose, passHandle, open_]⟩
  | free =>
      obtain ⟨_, taken⟩ := Option.ite_none_left_eq_some.mp taken
      obtain rfl := Option.some.inj taken
      simp only [dbConnectionFree, dbConnectionClose, if_neg valid, freed]
      exact ⟨fun _ => rfl, by simp [mysqlDrvDisconnect, mysqlClose, passHandle, open_, untouched],
        by simp [mysqlDrvDisconnect, mysqlClose, passHandle, open_]⟩

theorem step_sound (call : Call) (sound : DeadHandleUnused s)
    (holds : ReconnectionHolds args s call) (taken : step args s call = some t) :
    DeadHandleUnused t := by
  by_cases valid : s.state = .invalid
  · rw [refused_changes call valid taken]
    exact ⟨sound.invalid, sound.untouched, sound.once⟩
  · cases answered : answerOf s call with
    | none => exact other_calls_sound call sound valid answered taken
    | some result =>
        obtain ⟨answer, attempts⟩ := result
        obtain ⟨_, closes, untouched⟩ | ⟨failed, _⟩ :=
          command_handle call answer attempts sound valid answered taken
        · exact unused_of_open closes untouched
        · exact absurd failed (holds valid answer attempts answered)

theorem step_needs (call : Call) (sound : DeadHandleUnused s) (taken : step args s call = some t)
    (after : DeadHandleUnused t) : ReconnectionHolds args s call := by
  intro valid answer attempts answered failed
  obtain ⟨not, _⟩ | ⟨_, closes, ready⟩ :=
    command_handle call answer attempts sound valid answered taken
  · exact not failed
  · have invalid := after.invalid (by omega)
    exact absurd (ready.symm.trans invalid) (by decide)

/-- No call uses a dead handle exactly along the schedules in which connecting again
inside `check_error` never fails. -/
theorem dead_handle_unused_iff (args : Args) (counts : Counter → UInt64) (calls : List Call) :
    Always (step args) DeadHandleUnused (created counts) calls ↔
      Guarded (step args) (ReconnectionHolds args) (created counts) calls := by
  have start : DeadHandleUnused (created counts) := unused_of_open rfl rfl
  exact always_iff_guarded (fun _ sound => sound)
    (fun _ call _ sound holds taken => step_sound call sound holds taken)
    (fun _ call _ sound taken after => step_needs call sound taken after)
    (created counts) calls start

/-- The server goes away during a query and refuses the new connection; the next query
and the close use the handle, which the close closes again. -/
theorem closed_twice :
    let args : Args := ⟨[.code 2013], false⟩
    let calls : List Call :=
      [.query ⟨true, false, 2013, 0, 0⟩ [.refused, .aborted], .query ⟨true, false, 2006, 0, 0⟩ [],
        .close]
    ∃ con, run (step args) (created fun _ => 0) calls = some con ∧ con.usedClosed = true ∧
      con.closes = 2 ∧ ¬ Always (step args) DeadHandleUnused (created fun _ => 0) calls := by
  refine ⟨_, rfl, rfl, rfl, ?_⟩
  intro all
  have sound := always_head _ _ (all.2 _ rfl)
  exact absurd (sound.invalid (by decide)) (by decide)
end DeadHandles
end PteSysbench.Reconnection
