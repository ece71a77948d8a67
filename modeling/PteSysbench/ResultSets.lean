import PteSysbench.ActionSystem
import PteSysbench.DbDriver

/-!
Statements and result sets of one connection: `db_prepare` to `db_close` of
db_driver.c over the operations of drv_mysql.c. Outcomes of the client library
are inputs. Statements and stored results are numbered in the order they are
made; a closed statement keeps its number, so that a pointer to it is seen to dangle.
-/

namespace PteSysbench.ResultSets

open ActionSystem DbDriver

structure Statement where
  emulated : Bool
  /-- `stmt->ptr` is not NULL. -/
  handle : Bool
  closed : Bool
  deriving DecidableEq

/-- `use_ps` and `args.dry_run`. -/
structure DriverArgs where
  usePs : Bool
  dryRun : Bool

/-- The connection with its `rs`, and what happened to statements and results. -/
structure Connection where
  state : ConnState
  error : DbError
  counter : Counter
  statement : Option Nat
  ptr : Option Nat
  stmts : Nat → Option Statement
  prepared : Nat
  /-- Calls of `mysql_free_result` on each stored result. -/
  releases : Nat → Nat
  stored : Nat
  /-- Sender of the last command: a statement, or none for the text of a query. -/
  origin : Option Nat
  /-- Sender of the command whose result set is or was open last. -/
  producer : Option Nat
  /-- A closed statement has been read by `mysql_drv_free_results`. -/
  staleRead : Bool

def Live (con : Connection) (id : Nat) : Prop :=
  ∃ stmt, con.stmts id = some stmt ∧ stmt.closed = false

/-! The driver. -/
section Driver

/-- Outcome of a command or of looking for its next result: an error that
`check_error` finds ignorable or not, a result set, or none. -/
inductive Reply where
  | failed (ignorable reconnected : Bool)
  | noRows (affected : Bool)
  | rows

def checkError (con : Connection) (ignorable reconnected : Bool) : Connection × DbError :=
  ({ con with counter := if reconnected then .reconnect else .error },
    if ignorable then .ignorable else .fatal)

/-- `mysql_store_result` and what follows it. -/
def storeResult (con : Connection) (sender : Option Nat) : Reply → Connection × DbError
  | .failed ignorable reconnected => checkError con ignorable reconnected
  | .noRows affected => ({ con with counter := if affected then .write else .other }, .none)
  | .rows => ({ con with
      counter := .read
      ptr := some con.stored
      stored := con.stored + 1
      producer := sender }, .none)

/-- `mysql_stmt_store_result` and what follows it: `rs->ptr` is not used. -/
def storeStmtResult (con : Connection) (id : Nat) : Reply → Connection × DbError
  | .failed ignorable reconnected => checkError con ignorable reconnected
  | .noRows affected => ({ con with counter := if affected then .write else .other }, .none)
  | .rows => ({ con with counter := .read, producer := some id }, .none)

def mysqlDrvQuery (args : DriverArgs) (con : Connection) (sender : Option Nat) (reply : Reply) :
    Connection × DbError :=
  if args.dryRun then (con, .none) else storeResult { con with origin := sender } sender reply

def mysqlDrvNextResult (args : DriverArgs) (con : Connection) (reply : Reply) :
    Connection × DbError :=
  if args.dryRun then (con, .none) else storeResult con con.origin reply

/-- `buffer` says whether the text of an emulated statement could be built. -/
def mysqlDrvExecute (args : DriverArgs) (con : Connection) (id : Nat) (stmt : Statement)
    (buffer : Bool) (reply : Reply) : Connection × DbError :=
  if args.dryRun then (con, .none)
  else if stmt.emulated then
    if buffer then mysqlDrvQuery args con (some id) reply else (con, .fatal)
  else if stmt.handle then storeStmtResult { con with origin := some id } id reply
  else (con, .fatal)

def mysqlDrvStmtNextResult (args : DriverArgs) (con : Connection) (id : Nat) (stmt : Statement)
    (reply : Reply) : Connection × DbError :=
  if args.dryRun then (con, .none)
  else if stmt.emulated then mysqlDrvNextResult args con reply
  else if stmt.handle then storeStmtResult con id reply
  else (con, .fatal)

def freeResult (con : Connection) : Connection :=
  match con.ptr with
  | none => con
  | some r => { con with
      ptr := none
      releases := fun i => if i = r then con.releases i + 1 else con.releases i }

/-- Always returns 0. A server-side statement's result has no MYSQL_RES, so
`rs->ptr` is forgotten. -/
def mysqlDrvFreeResults (args : DriverArgs) (con : Connection) : Connection :=
  if args.dryRun then con
  else
    match con.statement with
    | none => freeResult con
    | some id =>
        match con.stmts id with
        | none => freeResult con
        | some stmt =>
            let read := { con with staleRead := con.staleRead || stmt.closed }
            if stmt.emulated then freeResult read else { read with ptr := none }

/-- Outcome of `mysql_stmt_init` and `mysql_stmt_prepare`. -/
inductive PrepareReply where
  | refused
  | unsupported
  | prepared

/-- The new statement, or none when the driver returns 1. -/
def mysqlDrvPrepare (args : DriverArgs) (reply : PrepareReply) : Option Statement :=
  if args.dryRun then some ⟨false, false, false⟩
  else if args.usePs then
    match reply with
    | .refused => none
    | .unsupported => some ⟨true, true, false⟩
    | .prepared => some ⟨false, true, false⟩
  else some ⟨true, false, false⟩
end Driver

/-! The database layer. -/
section Layer

def dbFreeResultsInt (args : DriverArgs) (con : Connection) : Connection :=
  { mysqlDrvFreeResults args con with statement := none, state := .ready }

/-- The open result set is freed first; with this driver that cannot fail. -/
def freedFirst (args : DriverArgs) (con : Connection) : Connection :=
  if con.state = .resultSet then dbFreeResultsInt args con else con

/-- The state after a driver operation. -/
def finish (outcome : Connection × DbError) : Connection :=
  let con := { outcome.1 with error := outcome.2 }
  if outcome.2 = .none then
    { con with state := if con.counter = .read then .resultSet else .ready }
  else con

def dbPrepare (args : DriverArgs) (con : Connection) (reply : PrepareReply) : Connection :=
  match mysqlDrvPrepare args reply with
  | none => { con with error := .fatal }
  | some stmt => { con with
      stmts := fun i => if i = con.prepared then some stmt else con.stmts i
      prepared := con.prepared + 1 }

def dbExecute (args : DriverArgs) (con : Connection) (id : Nat) (stmt : Statement)
    (buffer : Bool) (reply : Reply) : Connection :=
  let con := { freedFirst args con with statement := some id }
  finish (mysqlDrvExecute args con id stmt buffer reply)

def dbQuery (args : DriverArgs) (con : Connection) (reply : Reply) : Connection :=
  finish (mysqlDrvQuery args (freedFirst args con) none reply)

def dbNextResult (args : DriverArgs) (con : Connection) (reply : Reply) : Connection :=
  finish (mysqlDrvNextResult args (freedFirst args con) reply)

def dbStmtNextResult (args : DriverArgs) (con : Connection) (id : Nat) (stmt : Statement)
    (reply : Reply) : Connection :=
  let con := { freedFirst args con with statement := some id }
  finish (mysqlDrvStmtNextResult args con id stmt reply)

/-- Without an open result set the call is refused. -/
def dbFreeResults (args : DriverArgs) (con : Connection) : Connection :=
  if con.state = .resultSet then dbFreeResultsInt args con else con

/-- The statement is freed whatever the driver's close returns. -/
def dbClose (args : DriverArgs) (con : Connection) (id : Nat) (stmt : Statement) : Connection :=
  let con := freedFirst args con
  let con := if con.state = .resultSet ∧ con.statement = some id then dbFreeResultsInt args con
    else con
  { con with stmts := fun i =>
      if i = id then some { stmt with handle := false, closed := true } else con.stmts i }

inductive Call where
  | prepare (reply : PrepareReply)
  | execute (id : Nat) (buffer : Bool) (reply : Reply)
  | query (reply : Reply)
  | nextResult (reply : Reply)
  | stmtNextResult (id : Nat) (reply : Reply)
  | freeResults
  | close (id : Nat)

/-- The statement a caller may pass: one that has been prepared and not closed. -/
def openStatement (con : Connection) (id : Nat) : Option Statement :=
  (con.stmts id).filter fun stmt => !stmt.closed

def step (args : DriverArgs) (con : Connection) : Call → Option Connection
  | .prepare reply => some (dbPrepare args con reply)
  | .execute id buffer reply =>
      (openStatement con id).map fun stmt => dbExecute args con id stmt buffer reply
  | .query reply => some (dbQuery args con reply)
  | .nextResult reply => some (dbNextResult args con reply)
  | .stmtNextResult id reply =>
      (openStatement con id).map fun stmt => dbStmtNextResult args con id stmt reply
  | .freeResults => some (dbFreeResults args con)
  | .close id => (openStatement con id).map fun stmt => dbClose args con id stmt

/-- After `db_connection_create`. -/
def connected : Connection :=
  { state := .ready, error := .none, counter := .other, statement := none, ptr := none
    stmts := fun _ => none, prepared := 0, releases := fun _ => 0, stored := 0
    origin := none, producer := none, staleRead := false }
end Layer

/-! Ownership of the open result set. -/
section Ownership

/-- What `rs` owns: an open result set belongs to no statement or to the
live one whose execution produced it; every stored result has been released once,
but for one that is open and that freeing the result set will release; and no
closed statement has been read. -/
structure ResultsSound (con : Connection) : Prop where
  owner : con.state = .resultSet → ∀ id, con.statement = some id →
    Live con id ∧ con.producer = some id
  once : ∀ r < con.stored, con.releases r = if con.ptr = some r then 0 else 1
  pending : ∀ r, con.ptr = some r → con.state = .resultSet ∧
    ∀ id stmt, con.statement = some id → con.stmts id = some stmt → stmt.emulated = true
  noStaleRead : con.staleRead = false

/-- The calls that may open a result set with a pointer left over in
`rs.statement`: a query with none, the next result of the connection with none or
with the emulated statement that was sent last, the next result of an emulated
statement with that statement sent last. -/
def OpensCleanly (args : DriverArgs) (con : Connection) : Call → Prop
  | .query .rows => args.dryRun = false → con.state = .ready → con.statement = none
  | .nextResult .rows => args.dryRun = false → con.state = .ready →
      ∀ id, con.statement = some id → con.origin = some id ∧
        ∃ stmt, con.stmts id = some stmt ∧ stmt.closed = false ∧ stmt.emulated = true
  | .stmtNextResult id .rows => args.dryRun = false →
      ∀ stmt, openStatement con id = some stmt → stmt.emulated = true → con.origin = some id
  | _ => True

structure ResultsInvariant (args : DriverArgs) (con : Connection) : Prop where
  sound : ResultsSound con
  open_ : con.state ≠ .invalid
  known : ∀ r, con.ptr = some r → r < con.stored
  fresh : ∀ r, con.stored ≤ r → con.releases r = 0
  unprepared : ∀ id, con.prepared ≤ id → con.stmts id = none
  dry : args.dryRun = true → con.state = .ready ∧ con.counter ≠ .read

/-- No result set is open, and every stored one has been released. -/
structure Settled (args : DriverArgs) (con : Connection) : Prop where
  ready : con.state = .ready
  empty : con.ptr = none
  once : ∀ r < con.stored, con.releases r = 1
  fresh : ∀ r, con.stored ≤ r → con.releases r = 0
  unprepared : ∀ id, con.prepared ≤ id → con.stmts id = none
  noStaleRead : con.staleRead = false
  dry : args.dryRun = true → con.counter ≠ .read

theorem settled_invariant (args : DriverArgs) (con : Connection) (settled : Settled args con) :
    ResultsInvariant args con := by
  have closed : con.state ≠ .resultSet := by simp [settled.ready]
  constructor
  · constructor
    · exact fun shown => absurd shown closed
    · intro r stored
      rw [settled.once r stored, settled.empty]
      rfl
    · intro r pending
      exact absurd (settled.empty.symm.trans pending) (by simp)
    · exact settled.noStaleRead
  · simp [settled.ready]
  · intro r pending
    exact absurd (settled.empty.symm.trans pending) (by simp)
  · exact settled.fresh
  · exact settled.unprepared
  · exact fun dry => ⟨settled.ready, settled.dry dry⟩

theorem connected_invariant (args : DriverArgs) : ResultsInvariant args connected :=
  settled_invariant args connected
    ⟨rfl, rfl, by simp [connected], by simp [connected], by simp [connected], rfl,
      by simp [connected]⟩

/-- Fields that freeing a result set leaves alone. -/
structure SameStatements (before after : Connection) : Prop where
  stmts : after.stmts = before.stmts
  prepared : after.prepared = before.prepared
  origin : after.origin = before.origin

theorem free_result_settles (con : Connection)
    (once : ∀ r < con.stored, con.releases r = if con.ptr = some r then 0 else 1)
    (known : ∀ r, con.ptr = some r → r < con.stored)
    (fresh : ∀ r, con.stored ≤ r → con.releases r = 0) :
    (freeResult con).ptr = none ∧ (∀ r < (freeResult con).stored, (freeResult con).releases r = 1) ∧
      (∀ r, (freeResult con).stored ≤ r → (freeResult con).releases r = 0) ∧
      (freeResult con).staleRead = con.staleRead ∧ (freeResult con).counter = con.counter ∧
      SameStatements con (freeResult con) := by
  unfold freeResult
  cases held : con.ptr with
  | none =>
      refine ⟨held, fun r bound => ?_, fresh, rfl, rfl, rfl, rfl, rfl⟩
      simpa [held] using once r bound
  | some released =>
      refine ⟨rfl, fun r bound => ?_, fun r beyond => ?_, rfl, rfl, rfl, rfl, rfl⟩
      · have before := once r bound
        by_cases same : r = released
        · simp [held, same] at before ⊢
          omega
        · simpa [held, same, Ne.symm same] using before
      · have old : r ≠ released := by
          intro same
          have := known released held
          simp only at beyond
          omega
        simpa [old] using fresh r beyond

/-- With a sound owner the driver frees whatever `rs.ptr` holds. -/
theorem driver_frees_result (args : DriverArgs) (con : Connection)
    (valid : ResultsInvariant args con) (shown : con.state = .resultSet)
    (live : args.dryRun = false) : mysqlDrvFreeResults args con = freeResult con := by
  unfold mysqlDrvFreeResults
  rw [live, if_neg Bool.false_ne_true]
  split
  · rfl
  · rename_i id owner
    obtain ⟨⟨stmt, here, notClosed⟩, _⟩ := valid.sound.owner shown id owner
    have notRead : ({ con with staleRead := con.staleRead || stmt.closed } : Connection) = con := by
      rw [notClosed, Bool.or_false]
    rw [here]
    simp only [notRead]
    by_cases emulated : stmt.emulated = true
    · rw [if_pos emulated]
    · rw [if_neg emulated]
      -- a server-side owner: mysql_stmt_free_result suffices, rs.ptr is empty
      have empty : con.ptr = none := by
        cases held : con.ptr with
        | none => rfl
        | some r => exact absurd ((valid.sound.pending r held).2 id stmt owner here) emulated
      unfold freeResult
      rw [empty]
      simp only [← empty]
      exact notRead

theorem free_results_settles (args : DriverArgs) (con : Connection)
    (valid : ResultsInvariant args con) (shown : con.state = .resultSet) :
    Settled args (dbFreeResultsInt args con) ∧ (dbFreeResultsInt args con).statement = none ∧
      SameStatements con (dbFreeResultsInt args con) := by
  have live : args.dryRun = false := by
    cases dry : args.dryRun with
    | false => rfl
    | true => exact absurd (shown.symm.trans (valid.dry dry).1) (by simp)
  obtain ⟨empty, once, fresh, stale, _, same⟩ :=
    free_result_settles con valid.sound.once valid.known valid.fresh
  unfold dbFreeResultsInt
  rw [driver_frees_result args con valid shown live]
  have unprepared : ∀ id, (freeResult con).prepared ≤ id → (freeResult con).stmts id = none := by
    rw [same.stmts, same.prepared]
    exact valid.unprepared
  exact ⟨⟨rfl, empty, once, fresh, unprepared, stale.trans valid.sound.noStaleRead,
    by simp [live]⟩, rfl, same.1, same.2, same.3⟩

theorem freed_first_settles (args : DriverArgs) (con : Connection)
    (valid : ResultsInvariant args con) :
    Settled args (freedFirst args con) ∧ SameStatements con (freedFirst args con) ∧
      (freedFirst args con).statement = if con.state = .resultSet then none else con.statement := by
  unfold freedFirst
  by_cases shown : con.state = .resultSet
  · rw [if_pos shown, if_pos shown]
    obtain ⟨settled, cleared, same⟩ := free_results_settles args con valid shown
    exact ⟨settled, same, cleared⟩
  · rw [if_neg shown, if_neg shown]
    have ready : con.state = .ready := by
      cases state : con.state with
      | ready => rfl
      | resultSet => exact absurd state shown
      | invalid => exact absurd state valid.open_
    have empty : con.ptr = none := by
      cases held : con.ptr with
      | none => rfl
      | some r => exact absurd (valid.sound.pending r held).1 shown
    refine ⟨⟨ready, empty, fun r bound => ?_, valid.fresh, valid.unprepared,
      valid.sound.noStaleRead, fun dry => (valid.dry dry).2⟩, ⟨rfl, rfl, rfl⟩, rfl⟩
    simpa [empty] using valid.sound.once r bound

/-- A driver operation on a connection without a result set that opens none:
the error, the counter and the last sender may change. -/
structure OpensNone (args : DriverArgs) (before : Connection) (outcome : Connection × DbError) :
    Prop where
  state : outcome.1.state = before.state
  ptr : outcome.1.ptr = before.ptr
  stored : outcome.1.stored = before.stored
  releases : outcome.1.releases = before.releases
  staleRead : outcome.1.staleRead = before.staleRead
  stmts : outcome.1.stmts = before.stmts
  prepared : outcome.1.prepared = before.prepared
  notRead : outcome.2 = .none ∨ args.dryRun = true → outcome.1.counter ≠ .read

theorem opens_none_settled (args : DriverArgs) (con : Connection)
    (outcome : Connection × DbError) (settled : Settled args con)
    (none_ : OpensNone args con outcome) : Settled args (finish outcome) := by
  unfold finish
  have ready : outcome.1.state = .ready := none_.state.trans settled.ready
  have once : ∀ r < outcome.1.stored, outcome.1.releases r = 1 := by
    rw [none_.stored, none_.releases]
    exact settled.once
  have fresh : ∀ r, outcome.1.stored ≤ r → outcome.1.releases r = 0 := by
    rw [none_.stored, none_.releases]
    exact settled.fresh
  have unprepared : ∀ id, outcome.1.prepared ≤ id → outcome.1.stmts id = none := by
    rw [none_.prepared, none_.stmts]
    exact settled.unprepared
  have empty := none_.ptr.trans settled.empty
  have stale := none_.staleRead.trans settled.noStaleRead
  by_cases done : outcome.2 = .none
  · have counter := none_.notRead (Or.inl done)
    rw [if_pos done]
    exact ⟨if_neg counter, empty, once, fresh, unprepared, stale,
      fun dry => none_.notRead (Or.inr dry)⟩
  · rw [if_neg done]
    exact ⟨ready, empty, once, fresh, unprepared, stale, fun dry => none_.notRead (Or.inr dry)⟩

theorem check_error_opens_none (args : DriverArgs) (con : Connection)
    (ignorable reconnected : Bool) : OpensNone args con (checkError con ignorable reconnected) := by
  refine ⟨rfl, rfl, rfl, rfl, rfl, rfl, rfl, fun _ => ?_⟩
  cases reconnected <;> simp [checkError]

theorem store_result_opens_none (args : DriverArgs) (con : Connection) (sender : Option Nat)
    (reply : Reply) (notRows : reply ≠ .rows) :
    OpensNone args con (storeResult con sender reply) := by
  cases reply with
  | failed ignorable reconnected => exact check_error_opens_none args con ignorable reconnected
  | noRows affected =>
      refine ⟨rfl, rfl, rfl, rfl, rfl, rfl, rfl, fun _ => ?_⟩
      cases affected <;> simp [storeResult]
  | rows => exact absurd rfl notRows

theorem store_stmt_result_opens_none (args : DriverArgs) (con : Connection) (id : Nat)
    (reply : Reply) (notRows : reply ≠ .rows) :
    OpensNone args con (storeStmtResult con id reply) := by
  cases reply with
  | failed ignorable reconnected => exact check_error_opens_none args con ignorable reconnected
  | noRows affected =>
      refine ⟨rfl, rfl, rfl, rfl, rfl, rfl, rfl, fun _ => ?_⟩
      cases affected <;> simp [storeStmtResult]
  | rows => exact absurd rfl notRows

theorem unchanged_opens_none (args : DriverArgs) (con : Connection) (error : DbError)
    (settled : Settled args con) (quiet : args.dryRun = true ∨ error ≠ .none) :
    OpensNone args con (con, error) := by
  refine ⟨rfl, rfl, rfl, rfl, rfl, rfl, rfl, ?_⟩
  rintro (done | dry)
  · rcases quiet with dry | failed
    · exact settled.dry dry
    · exact absurd done failed
  · exact settled.dry dry

/-- Opening a text result over a settled connection is sound exactly when the
statement in `rs` is the live emulated sender, or there is none. -/
theorem opened_text_sound_iff (args : DriverArgs) (con : Connection) (sender : Option Nat)
    (settled : Settled args con) (live : args.dryRun = false) :
    (ResultsSound (finish (storeResult con sender .rows)) ↔
      ∀ id, con.statement = some id → sender = some id ∧
        ∃ stmt, con.stmts id = some stmt ∧ stmt.closed = false ∧ stmt.emulated = true) ∧
    (ResultsSound (finish (storeResult con sender .rows)) →
      ResultsInvariant args (finish (storeResult con sender .rows))) := by
  have shape : finish (storeResult con sender .rows) =
      { con with
        error := .none, counter := .read, ptr := some con.stored, stored := con.stored + 1
        producer := sender, state := .resultSet } := rfl
  rw [shape]
  refine ⟨⟨fun sound id owner => ?_, fun owned => ?_⟩, fun sound => ?_⟩
  · obtain ⟨⟨stmt, here, notClosed⟩, produced⟩ := sound.owner rfl id owner
    exact ⟨produced, stmt, here, notClosed, (sound.pending _ rfl).2 id stmt owner here⟩
  · constructor
    · intro _ id owner
      obtain ⟨produced, stmt, here, notClosed, _⟩ := owned id owner
      exact ⟨⟨stmt, here, notClosed⟩, produced⟩
    · intro r bound
      -- the result just stored, or one released before
      by_cases last : r = con.stored
      · subst last
        simpa using settled.fresh con.stored (Nat.le_refl _)
      · have old : r < con.stored := by
          simp only at bound
          omega
        simpa [Ne.symm last] using settled.once r old
    · intro r pending
      refine ⟨rfl, fun id stmt owner here => ?_⟩
      obtain ⟨_, other, same, _, emulated⟩ := owned id owner
      cases here.symm.trans same
      exact emulated
    · exact settled.noStaleRead
  · refine ⟨sound, by simp, fun r pending => ?_, fun r beyond => ?_, settled.unprepared,
      by simp [live]⟩
    · cases pending
      exact Nat.lt_succ_self _
    · exact settled.fresh r (Nat.le_of_succ_le beyond)

/-- A server-side statement's own result set is always sound. -/
theorem opened_stmt_invariant (args : DriverArgs) (con : Connection) (id : Nat)
    (settled : Settled args con) (live : args.dryRun = false) (owner : con.statement = some id)
    (alive : Live con id) : ResultsInvariant args (finish (storeStmtResult con id .rows)) := by
  have shape : finish (storeStmtResult con id .rows) =
      { con with error := .none, counter := .read, producer := some id, state := .resultSet } := rfl
  rw [shape]
  have empty : ∀ r, con.ptr ≠ some r := by
    intro r pending
    exact absurd (settled.empty.symm.trans pending) (by simp)
  refine ⟨⟨?_, fun r bound => ?_, fun r pending => absurd pending (empty r), settled.noStaleRead⟩,
    by simp, fun r pending => absurd pending (empty r), settled.fresh, settled.unprepared,
    by simp [live]⟩
  · intro _ other same
    cases owner.symm.trans same
    exact ⟨alive, rfl⟩
  · simpa [settled.empty] using settled.once r bound
end Ownership

/-! Runs of calls. -/
section Runs

theorem open_statement_spec (con : Connection) (id : Nat) (stmt : Statement)
    (found : openStatement con id = some stmt) :
    con.stmts id = some stmt ∧ stmt.closed = false := by
  obtain ⟨here, notClosed⟩ := Option.filter_eq_some_iff.mp found
  exact ⟨here, by simpa using notClosed⟩

theorem prepare_invariant (args : DriverArgs) (con : Connection) (reply : PrepareReply)
    (valid : ResultsInvariant args con) : ResultsInvariant args (dbPrepare args con reply) := by
  unfold dbPrepare
  split
  · exact ⟨⟨valid.sound.owner, valid.sound.once, valid.sound.pending, valid.sound.noStaleRead⟩,
      valid.open_, valid.known, valid.fresh, valid.unprepared, valid.dry⟩
  · rename_i stmt made
    -- a new statement is none of those the connection knows
    have old : ∀ id other, con.stmts id = some other → id ≠ con.prepared := by
      intro id other here same
      rw [same, valid.unprepared _ (Nat.le_refl _)] at here
      cases here
    refine ⟨⟨?_, valid.sound.once, ?_, valid.sound.noStaleRead⟩, valid.open_, valid.known,
      valid.fresh, ?_, valid.dry⟩
    · intro shown id owner
      obtain ⟨⟨other, here, notClosed⟩, produced⟩ := valid.sound.owner shown id owner
      exact ⟨⟨other, by simp [old id other here, here], notClosed⟩, produced⟩
    · intro r pending
      obtain ⟨shown, emulated⟩ := valid.sound.pending r pending
      refine ⟨shown, fun id other owner here => ?_⟩
      obtain ⟨⟨first, before, _⟩, _⟩ := valid.sound.owner shown id owner
      simp only [old id first before, ↓reduceIte] at here
      exact emulated id other owner here
    · intro id bound
      have different : id ≠ con.prepared := by
        simp only at bound
        omega
      simp only [different, ↓reduceIte]
      exact valid.unprepared id (Nat.le_of_succ_le bound)

theorem close_invariant (args : DriverArgs) (con : Connection) (id : Nat) (stmt : Statement)
    (valid : ResultsInvariant args con) (found : con.stmts id = some stmt) :
    ResultsInvariant args (dbClose args con id stmt) := by
  obtain ⟨settled, same, _⟩ := freed_first_settles args con valid
  have notShown : ¬ ((freedFirst args con).state = .resultSet ∧
      (freedFirst args con).statement = some id) := by simp [settled.ready]
  unfold dbClose
  simp only [if_neg notShown]
  apply settled_invariant
  refine ⟨settled.ready, settled.empty, settled.once, settled.fresh, ?_, settled.noStaleRead,
    settled.dry⟩
  intro other bound
  have different : other ≠ id := by
    intro equal
    have := settled.unprepared other bound
    rw [same.stmts, equal, found] at this
    cases this
  simp only [different, ↓reduceIte]
  exact settled.unprepared other bound

theorem settled_with_statement (args : DriverArgs) (con : Connection) (id : Nat)
    (settled : Settled args con) : Settled args { con with statement := some id } :=
  ⟨settled.ready, settled.empty, settled.once, settled.fresh, settled.unprepared,
    settled.noStaleRead, settled.dry⟩

theorem settled_with_origin (args : DriverArgs) (con : Connection) (sender : Option Nat)
    (settled : Settled args con) : Settled args { con with origin := sender } :=
  ⟨settled.ready, settled.empty, settled.once, settled.fresh, settled.unprepared,
    settled.noStaleRead, settled.dry⟩

/-- The call's result is sound under `condition` only, and then keeps the invariant. -/
def SoundWhen (args : DriverArgs) (after : Connection) (condition : Prop) : Prop :=
  (ResultsSound after ↔ condition) ∧ (ResultsSound after → ResultsInvariant args after)

theorem sound_when_invariant (args : DriverArgs) (after : Connection) (condition : Prop)
    (valid : ResultsInvariant args after) (holds : condition) : SoundWhen args after condition :=
  ⟨⟨fun _ => holds, fun _ => valid.sound⟩, fun _ => valid⟩

/-- In a dry run, and when a statement cannot be sent, nothing is opened. -/
theorem unsent_call (args : DriverArgs) (con : Connection) (error : DbError)
    (settled : Settled args con) (quiet : args.dryRun = true ∨ error ≠ .none) :
    ResultsInvariant args (finish (con, error)) :=
  settled_invariant args _ (opens_none_settled args con _ settled
    (unchanged_opens_none args con error settled quiet))

theorem text_call (args : DriverArgs) (con : Connection) (sender : Option Nat) (reply : Reply)
    (settled : Settled args con) (live : args.dryRun = false) :
    SoundWhen args (finish (storeResult con sender reply))
      (reply = .rows → ∀ id, con.statement = some id → sender = some id ∧
        ∃ stmt, con.stmts id = some stmt ∧ stmt.closed = false ∧ stmt.emulated = true) := by
  by_cases rows : reply = .rows
  · subst rows
    obtain ⟨soundIff, keeps⟩ := opened_text_sound_iff args con sender settled live
    exact ⟨soundIff.trans ⟨fun owned _ => owned, fun owned => owned rfl⟩, keeps⟩
  · apply sound_when_invariant
    · apply settled_invariant
      exact opens_none_settled args con _ settled
        (store_result_opens_none args con sender reply rows)
    · exact fun shown => absurd shown rows

theorem stmt_call (args : DriverArgs) (con : Connection) (id : Nat) (reply : Reply)
    (settled : Settled args con) (live : args.dryRun = false) (owner : con.statement = some id)
    (alive : Live con id) : ResultsInvariant args (finish (storeStmtResult con id reply)) := by
  by_cases rows : reply = .rows
  · subst rows
    exact opened_stmt_invariant args con id settled live owner alive
  · apply settled_invariant
    exact opens_none_settled args con _ settled
      (store_stmt_result_opens_none args con id reply rows)

theorem sound_when_congr (args : DriverArgs) (after : Connection) (left right : Prop)
    (same : left ↔ right) (sound : SoundWhen args after left) : SoundWhen args after right :=
  ⟨sound.1.trans same, sound.2⟩

theorem query_call (args : DriverArgs) (con : Connection) (reply : Reply)
    (valid : ResultsInvariant args con) :
    SoundWhen args (dbQuery args con reply) (OpensCleanly args con (.query reply)) := by
  obtain ⟨settled, _, left_⟩ := freed_first_settles args con valid
  unfold dbQuery mysqlDrvQuery
  cases dry : args.dryRun with
  | true =>
      apply sound_when_invariant
      · exact unsent_call args _ .none settled (Or.inl dry)
      · cases reply <;> simp [OpensCleanly, dry]
  | false =>
      have text := text_call args { freedFirst args con with origin := none } none reply
        (settled_with_origin args _ none settled) dry
      refine sound_when_congr args _ _ _ ?_ text
      cases reply with
      | failed ignorable reconnected => simp [OpensCleanly]
      | noRows affected => simp [OpensCleanly]
      | rows =>
          cases state : con.state with
          | invalid => exact absurd state valid.open_
          -- freeing the open result has cleared rs.statement
          | resultSet => simp [OpensCleanly, state, left_]
          | ready => simp [OpensCleanly, state, left_, dry, Option.eq_none_iff_forall_ne_some]

theorem next_result_call (args : DriverArgs) (con : Connection) (reply : Reply)
    (valid : ResultsInvariant args con) :
    SoundWhen args (dbNextResult args con reply) (OpensCleanly args con (.nextResult reply)) := by
  obtain ⟨settled, same, left_⟩ := freed_first_settles args con valid
  unfold dbNextResult mysqlDrvNextResult
  cases dry : args.dryRun with
  | true =>
      apply sound_when_invariant
      · exact unsent_call args _ .none settled (Or.inl dry)
      · cases reply <;> simp [OpensCleanly, dry]
  | false =>
      have text := text_call args (freedFirst args con) (freedFirst args con).origin reply
        settled dry
      refine sound_when_congr args _ _ _ ?_ text
      cases reply with
      | failed ignorable reconnected => simp [OpensCleanly]
      | noRows affected => simp [OpensCleanly]
      | rows =>
          cases state : con.state with
          | invalid => exact absurd state valid.open_
          | resultSet => simp [OpensCleanly, state, left_]
          | ready => simp [OpensCleanly, state, left_, dry, same.origin, same.stmts]

theorem statement_set (args : DriverArgs) (con : Connection) (id : Nat) (stmt : Statement)
    (valid : ResultsInvariant args con) (found : openStatement con id = some stmt) :
    Settled args { freedFirst args con with statement := some id } ∧
      (freedFirst args con).stmts id = some stmt ∧ stmt.closed = false ∧
      (freedFirst args con).origin = con.origin := by
  obtain ⟨settled, same, _⟩ := freed_first_settles args con valid
  obtain ⟨here, notClosed⟩ := open_statement_spec con id stmt found
  exact ⟨settled_with_statement args _ id settled, same.stmts ▸ here, notClosed, same.origin⟩

theorem execute_call (args : DriverArgs) (con : Connection) (id : Nat) (stmt : Statement)
    (buffer : Bool) (reply : Reply) (valid : ResultsInvariant args con)
    (found : openStatement con id = some stmt) :
    ResultsInvariant args (dbExecute args con id stmt buffer reply) := by
  obtain ⟨settled, here, notClosed, _⟩ := statement_set args con id stmt valid found
  unfold dbExecute mysqlDrvExecute
  cases dry : args.dryRun with
  | true => exact unsent_call args _ .none settled (Or.inl dry)
  | false =>
      simp only [Bool.false_eq_true, ↓reduceIte]
      by_cases emulated : stmt.emulated = true
      · rw [if_pos emulated]
        cases buffer with
        | false => exact unsent_call args _ .fatal settled (Or.inr (by simp))
        | true =>
            simp only [↓reduceIte, mysqlDrvQuery, dry, Bool.false_eq_true]
            have text := text_call args _ (some id) reply
              (settled_with_origin args _ (some id) settled) dry
            apply text.2
            apply text.1.mpr
            intro _ other owner
            cases owner
            exact ⟨rfl, stmt, here, notClosed, emulated⟩
      -- rs.statement has just been set, so a server-side result has its owner
      · rw [if_neg emulated]
        by_cases handle : stmt.handle = true
        · rw [if_pos handle]
          exact stmt_call args _ id reply (settled_with_origin args _ (some id) settled) dry rfl
            ⟨stmt, here, notClosed⟩
        · rw [if_neg handle]
          exact unsent_call args _ .fatal settled (Or.inr (by simp))

theorem stmt_next_result_call (args : DriverArgs) (con : Connection) (id : Nat)
    (stmt : Statement) (reply : Reply) (valid : ResultsInvariant args con)
    (found : openStatement con id = some stmt) :
    SoundWhen args (dbStmtNextResult args con id stmt reply)
      (OpensCleanly args con (.stmtNextResult id reply)) := by
  obtain ⟨settled, here, notClosed, origin⟩ := statement_set args con id stmt valid found
  unfold dbStmtNextResult mysqlDrvStmtNextResult
  cases dry : args.dryRun with
  | true =>
      apply sound_when_invariant
      · exact unsent_call args _ .none settled (Or.inl dry)
      · cases reply <;> simp [OpensCleanly, dry]
  | false =>
      simp only [Bool.false_eq_true, ↓reduceIte]
      by_cases emulated : stmt.emulated = true
      · rw [if_pos emulated]
        simp only [mysqlDrvNextResult, dry, Bool.false_eq_true, ↓reduceIte]
        have text := text_call args _ (freedFirst args con).origin reply settled dry
        refine sound_when_congr args _ _ _ ?_ text
        cases reply with
        | failed ignorable reconnected => simp [OpensCleanly]
        | noRows affected => simp [OpensCleanly]
        | rows => simp [OpensCleanly, dry, found, emulated, here, notClosed, origin]
      · rw [if_neg emulated]
        have condition : OpensCleanly args con (.stmtNextResult id reply) := by
          cases reply with
          | failed ignorable reconnected => trivial
          | noRows affected => trivial
          | rows =>
              intro _ other same required
              cases found.symm.trans same
              exact absurd required emulated
        by_cases handle : stmt.handle = true
        · rw [if_pos handle]
          exact sound_when_invariant args _ _
            (stmt_call args _ id reply settled dry rfl ⟨stmt, here, notClosed⟩) condition
        · rw [if_neg handle]
          exact sound_when_invariant args _ _
            (unsent_call args _ .fatal settled (Or.inr (by simp))) condition

theorem step_sound_when (args : DriverArgs) (con after : Connection) (call : Call)
    (valid : ResultsInvariant args con) (taken : step args con call = some after) :
    SoundWhen args after (OpensCleanly args con call) := by
  cases call with
  | prepare reply =>
      cases taken
      exact sound_when_invariant args _ _ (prepare_invariant args con reply valid) trivial
  | execute id buffer reply =>
      obtain ⟨stmt, found, same⟩ := Option.map_eq_some_iff.mp taken
      subst same
      exact sound_when_invariant args _ _
        (execute_call args con id stmt buffer reply valid found) trivial
  | query reply =>
      cases taken
      exact query_call args con reply valid
  | nextResult reply =>
      cases taken
      exact next_result_call args con reply valid
  | stmtNextResult id reply =>
      obtain ⟨stmt, found, same⟩ := Option.map_eq_some_iff.mp taken
      subst same
      exact stmt_next_result_call args con id stmt reply valid found
  | freeResults =>
      cases taken
      apply sound_when_invariant args _ _ _ trivial
      exact settled_invariant args _ (freed_first_settles args con valid).1
  | close id =>
      obtain ⟨stmt, found, same⟩ := Option.map_eq_some_iff.mp taken
      subst same
      exact sound_when_invariant args _ _
        (close_invariant args con id stmt valid (open_statement_spec con id stmt found).1) trivial

/-- Along any sequence of calls the result sets are sound exactly when none is
opened over a statement left in `rs`. -/
theorem results_sound_iff (args : DriverArgs) (schedule : List Call) :
    Always (step args) ResultsSound connected schedule ↔
      Guarded (step args) (OpensCleanly args) connected schedule := by
  apply always_iff_guarded (fun con (valid : ResultsInvariant args con) => valid.sound)
  · intro con call after valid clean taken
    obtain ⟨soundIff, keeps⟩ := step_sound_when args con after call valid taken
    exact keeps (soundIff.mpr clean)
  · intro con call after valid taken sound
    exact (step_sound_when args con after call valid taken).1.mp sound
  · exact connected_invariant args

/-- A write statement, closed; then a SELECT whose result is freed. -/
def closedBeforeSelect : List Call :=
  [.prepare .prepared, .execute 0 true (.noRows true), .close 0, .query .rows, .freeResults]

/-- After them a freed statement has been read and the result is not released. -/
theorem closed_statement_read :
    (run (step ⟨true, false⟩) connected closedBeforeSelect).map
        (fun con => (con.staleRead, con.stored, con.releases 0)) = some (true, 1, 0) ∧
      ¬ Always (step ⟨true, false⟩) ResultsSound connected closedBeforeSelect := by
  refine ⟨rfl, fun all => ?_⟩
  have sound := always_reached connected _ closedBeforeSelect [] (by simpa using all) rfl
  exact absurd sound.noStaleRead (by decide)
end Runs
end PteSysbench.ResultSets
