import PteSysbench.Reconnection

/-!
The statistics of a MySQL connection: which counter of its thread a query, an
execution and a reconnection add to. The driver leaves the counter in the shared
`rs->counter`, where some of its exits do not write.
-/

namespace PteSysbench.QueryCounters

open ActionSystem DbDriver Reconnection

variable {args : Args} {s t : Connection}

/-- One more of a counter, and of no other. -/
def AddsOne (s t : Connection) (counter : Counter) : Prop :=
  t.counts = Function.update s.counts counter (s.counts counter + 1)

def Affected (answer : Option Answer) : Prop :=
  ∃ affected, answer = some (.noRows affected) ∧ affected ≠ 0

/-- The counter of a command, by what the command has come to. The server has been
connected to again when there is one connect more. -/
structure ByRule (s t : Connection) (answer : Option Answer) (counter : Counter) : Prop where
  opened : t.state = .resultSet ↔ answer = some .rows
  read : counter = .read ↔ t.state = .resultSet
  write : counter = .write ↔ t.error = .none ∧ t.state ≠ .resultSet ∧ Affected answer
  other : counter = .other ↔ t.error = .none ∧ t.state ≠ .resultSet ∧ ¬ Affected answer
  reconnect : counter = .reconnect ↔ t.connects ≠ s.connects
  error : counter = .error ↔ t.error ≠ .none ∧ t.connects = s.connects

def CommandCounted (s t : Connection) (answer : Option Answer) : Prop :=
  ∃ counter, AddsOne s t counter ∧ ByRule s t answer counter

/-- A reconnection is counted by whether the handle is open behind it. -/
def ReconnectCounted (s t : Connection) : Prop :=
  ∃ counter, AddsOne s t counter ∧ (counter = .reconnect ↔ t.closes = 0) ∧
    (counter = .error ↔ t.closes ≠ 0)

/-- A call that reaches the driver is counted by the rule, any other not at all. -/
def CallCounted (s t : Connection) (call : Call) : Prop :=
  if s.state = .invalid then t.counts = s.counts
  else
    match call with
    | .query _ _ | .execute _ _ _ => CommandCounted s t ((answerOf s call).map Prod.fst)
    | .reconnect _ => ReconnectCounted s t
    | .prepare _ | .close | .free => t.counts = s.counts

/-- Connecting again inside `check_error` does not fail, no affected rows are lost in
32 bits, and an execution without memory for its text follows a failed command. -/
structure CountsWell (args : Args) (s : Connection) (call : Call) : Prop where
  reconnected : ReconnectionHolds args s call
  rows : s.state ≠ .invalid → ∀ affected attempts,
    answerOf s call = some (.noRows affected, attempts) → affected.toUInt32 = 0 → affected = 0
  stale : s.state ≠ .invalid → ∀ id attempts, call = .execute id .noMemory attempts →
    s.counter = .error

/-- A server-side statement has a handle. -/
def Prepared (s : Connection) : Prop :=
  ∀ stmt ∈ s.stmts, stmt.emulated = false → stmt.handle = true

/-! Statements. -/
section Statements

theorem finish_stmts (outcome : Connection × DbError) :
    (finish outcome).stmts = outcome.1.stmts := by
  unfold finish
  split <;> rfl

theorem reconnect_stmts (attempts : List Attempt) (outcome : Connection × DbError)
    (tried : mysqlDrvReconnect s attempts = some outcome) : outcome.1.stmts = s.stmts := by
  obtain ⟨connected, _, rfl⟩ := Option.map_eq_some_iff.mp tried
  cases connected <;> rfl

/-- What a command leaves to the database layer. -/
theorem conclude_keeps (attempts : List Attempt) (answer : Answer)
    (outcome : Connection × DbError) (concluded : conclude args s attempts answer = some outcome) :
    outcome.1.stmts = s.stmts ∧ outcome.1.counts = s.counts ∧ outcome.1.state = s.state := by
  cases answer with
  | rows | noRows =>
      obtain rfl := Option.some.inj concluded
      exact ⟨rfl, rfl, rfl⟩
  | error errno =>
      obtain ⟨_, _, same⟩ | ⟨_, _, _, same⟩ | ⟨_, _, _, same⟩ :=
        check_error_cases errno attempts outcome concluded
      all_goals
        rw [same]
        exact ⟨rfl, rfl, rfl⟩

theorem prepare_handle (reply : ResultSets.PrepareReply) (stmt : ResultSets.Statement)
    (made : ResultSets.mysqlDrvPrepare ⟨args.usePs, false⟩ reply = some stmt)
    (server : stmt.emulated = false) : stmt.handle = true := by
  unfold ResultSets.mysqlDrvPrepare at made
  cases ps : args.usePs <;> cases reply <;> simp [ps] at made <;> subst made <;> simp_all

theorem command_stmts (call : Call) (answer : Answer) (attempts : List Attempt)
    (valid : s.state ≠ .invalid) (answered : answerOf s call = some (answer, attempts))
    (taken : step args s call = some t) : t.stmts = s.stmts := by
  obtain ⟨used, outcome, concluded, rfl, _⟩ :=
    command_concludes call answer attempts valid answered taken
  exact (finish_stmts outcome).trans (conclude_keeps attempts answer outcome concluded).1

theorem freed_first_keeps (s : Connection) :
    (freedFirst s).stmts = s.stmts ∧ (freedFirst s).counts = s.counts := by
  rw [freed_first_eq]
  exact ⟨rfl, rfl⟩

theorem close_keeps (s : Connection) :
    (dbConnectionClose s).stmts = s.stmts ∧ (dbConnectionClose s).counts = s.counts := by
  unfold dbConnectionClose
  split
  · exact ⟨rfl, rfl⟩
  · exact freed_first_keeps s

theorem free_keeps (s : Connection) (valid : s.state ≠ .invalid) :
    (dbConnectionFree s).stmts = s.stmts ∧ (dbConnectionFree s).counts = s.counts := by
  simp only [dbConnectionFree, if_neg valid]
  exact close_keeps s

theorem step_prepared (call : Call) (prepared : Prepared s) (taken : step args s call = some t) :
    Prepared t := by
  by_cases invalid : s.state = .invalid
  · rw [refused_changes call invalid taken]
    exact prepared
  -- only `db_prepare` adds a statement
  have kept : t.stmts = s.stmts → Prepared t := by
    intro same
    unfold Prepared
    rw [same]
    exact prepared
  cases call with
  | query reply attempts =>
      exact kept (command_stmts _ reply.answer attempts invalid rfl taken)
  | execute id reply attempts =>
      cases answered : answerOf s (.execute id reply attempts) with
      | some result => exact kept (command_stmts _ result.1 result.2 invalid answered taken)
      | none =>
          obtain ⟨rfl, _⟩ := nothing_sent id reply attempts invalid answered taken
          exact kept (finish_stmts _)
  | prepare reply =>
      obtain ⟨_, taken⟩ := Option.ite_none_left_eq_some.mp taken
      obtain rfl := Option.some.inj taken
      cases made : ResultSets.mysqlDrvPrepare ⟨args.usePs, false⟩ reply with
      | none =>
          apply kept
          simp only [dbPrepare, if_neg invalid, mysqlDrvPrepare, made]
          split <;> rfl
      | some stmt =>
          have added : (dbPrepare args s reply).stmts = s.stmts ++ [stmt] := by
            simp only [dbPrepare, if_neg invalid, mysqlDrvPrepare, made]
            split <;> rfl
          intro other member server
          rw [added] at member
          rcases List.mem_append.mp member with old | new
          · exact prepared other old server
          · obtain rfl := List.mem_singleton.mp new
            exact prepare_handle reply other made server
  | reconnect attempts =>
      obtain ⟨_, taken⟩ := Option.ite_none_left_eq_some.mp taken
      simp only [dbConnectionReconnect, if_neg invalid] at taken
      obtain ⟨outcome, tried, rfl⟩ := Option.map_eq_some_iff.mp taken
      apply kept
      have same := (reconnect_stmts attempts outcome tried).trans (freed_first_keeps s).1
      split <;> exact same
  | close =>
      obtain ⟨_, taken⟩ := Option.ite_none_left_eq_some.mp taken
      obtain rfl := Option.some.inj taken
      exact kept (close_keeps s).1
  | free =>
      obtain ⟨_, taken⟩ := Option.ite_none_left_eq_some.mp taken
      obtain rfl := Option.some.inj taken
      exact kept (free_keeps s invalid).1
end Statements

/-! One call. -/
section Calls

theorem one_more (count : UInt64) : count + 1 ≠ count := by
  intro same
  simp at same

theorem adds_one_unique (first second : Counter) (one : AddsOne s t first)
    (same : AddsOne s t second) : first = second := by
  by_contra different
  have counted : t.counts first = s.counts first + 1 := by rw [one, Function.update_self]
  have kept : t.counts first = s.counts first := by
    rw [same, Function.update_of_ne different]
  exact one_more _ (counted.symm.trans kept)

/-- The rule needs to be checked for the counter that was added to. -/
theorem counted_iff (answer : Option Answer) (counter : Counter) (one : AddsOne s t counter) :
    CommandCounted s t answer ↔ ByRule s t answer counter := by
  constructor
  · rintro ⟨second, same, rule⟩
    rwa [adds_one_unique counter second one same]
  · exact fun rule => ⟨counter, one, rule⟩

theorem finish_counts (outcome : Connection × DbError) :
    AddsOne outcome.1 (finish outcome) outcome.1.counter := by
  unfold finish
  split <;> rfl

theorem finish_fields (outcome : Connection × DbError) :
    (finish outcome).error = outcome.2 ∧ (finish outcome).connects = outcome.1.connects := by
  unfold finish
  split <;> exact ⟨rfl, rfl⟩

theorem finish_state (outcome : Connection × DbError) (ready : outcome.1.state = .ready) :
    (finish outcome).state = .resultSet ↔ outcome.2 = .none ∧ outcome.1.counter = .read := by
  unfold finish
  by_cases succeeded : outcome.2 = .none
  · by_cases read : outcome.1.counter = .read <;> simp [succeeded, read, sbCounterInc]
  · simp [succeeded, sbCounterInc, ready]

/-- A command that has failed, without a result set. -/
theorem failed_by_rule (answer : Option Answer) (counter : Counter)
    (failed : t.error ≠ .none) (closed : t.state ≠ .resultSet) (rows : answer ≠ some .rows) :
    ByRule s t answer counter ↔
      counter = if t.connects = s.connects then .error else .reconnect := by
  constructor
  · intro rule
    by_cases same : t.connects = s.connects
    · rw [if_pos same]
      exact rule.error.mpr ⟨failed, same⟩
    · rw [if_neg same]
      exact rule.reconnect.mpr same
  · intro this
    by_cases same : t.connects = s.connects
    · rw [if_pos same] at this
      subst this
      constructor <;> simp [failed, closed, rows, same]
    · rw [if_neg same] at this
      subst this
      constructor <;> simp [failed, closed, rows, same]

theorem rows_by_rule (succeeded : t.error = .none) (opened : t.state = .resultSet)
    (same : t.connects = s.connects) : ByRule s t (some .rows) .read := by
  constructor <;> simp [succeeded, opened, same]

theorem affected_no_rows (affected : UInt64) :
    Affected (some (.noRows affected)) ↔ affected ≠ 0 := by
  simp [Affected]

/-- A command that has succeeded without a result set. -/
theorem no_rows_by_rule (affected : UInt64) (counter : Counter) (succeeded : t.error = .none)
    (closed : t.state ≠ .resultSet) (same : t.connects = s.connects) :
    ByRule s t (some (.noRows affected)) counter ↔
      counter = if affected = 0 then .other else .write := by
  constructor
  · intro rule
    by_cases none_ : affected = 0
    · rw [if_pos none_]
      exact rule.other.mpr ⟨succeeded, closed, fun some_ => (affected_no_rows _).mp some_ none_⟩
    · rw [if_neg none_]
      exact rule.write.mpr ⟨succeeded, closed, (affected_no_rows _).mpr none_⟩
  · intro this
    by_cases none_ : affected = 0
    · rw [if_pos none_] at this
      subst this
      constructor <;> simp [succeeded, closed, same, affected_no_rows, none_]
    · rw [if_neg none_] at this
      subst this
      constructor <;> simp [succeeded, closed, same, affected_no_rows, none_]

/-- The counter of affected rows says what the whole number would, unless only its lower
half is zero. -/
theorem affected_counter_iff (affected : UInt64) :
    ((if 0 < affected.toUInt32 then Counter.write else .other) =
        if affected = 0 then .other else .write) ↔ (affected.toUInt32 = 0 → affected = 0) := by
  by_cases none_ : affected = 0
  · simp [none_]
  · by_cases lower : affected.toUInt32 = 0
    · simp [none_, lower]
    · simp [none_, lower, UInt32.pos_iff_ne_zero]

/-- `check_error` leaves the counter of the rule unless it has failed to connect again. -/
theorem check_error_counter_iff (errno : UInt32) (attempts : List Attempt)
    (outcome : Connection × DbError) (checked : checkError args s errno attempts = some outcome) :
    outcome.2 ≠ .none ∧
      ((outcome.1.counter = if outcome.1.connects = s.connects then .error else .reconnect) ↔
        ¬ ReconnectionFails args (.error errno) attempts) := by
  obtain ⟨not, failed, same⟩ | ⟨_, _, ended, rfl⟩ | ⟨ignored, lost, ended, rfl⟩ :=
    check_error_cases errno attempts outcome checked
  · have holds : ¬ ReconnectionFails args (.error errno) attempts := by
      rintro ⟨_, this, ignored, lost, _⟩
      cases this
      exact not ⟨ignored, lost⟩
    exact ⟨failed, by simp [same, passHandle, holds]⟩
  · have holds : ¬ ReconnectionFails args (.error errno) attempts := by
      rintro ⟨_, _, _, _, lost⟩
      exact absurd (ended.symm.trans lost) (by decide)
    exact ⟨DbError.noConfusion, by simp [connectedAgain, mysqlClose, passHandle, holds]⟩
  · have fails : ReconnectionFails args (.error errno) attempts :=
      ⟨errno, rfl, ignored, lost, ended⟩
    exact ⟨DbError.noConfusion, by simp [mysqlClose, passHandle, fails]⟩

/-- A command is counted by the rule when its reconnection, if there is one, succeeds and
its affected rows are seen. -/
theorem command_counted_iff (call : Call) (answer : Answer) (attempts : List Attempt)
    (valid : s.state ≠ .invalid) (answered : answerOf s call = some (answer, attempts))
    (taken : step args s call = some t) :
    CommandCounted s t (some answer) ↔ ¬ ReconnectionFails args answer attempts ∧
      ∀ affected, answer = .noRows affected → affected.toUInt32 = 0 → affected = 0 := by
  obtain ⟨used, outcome, concluded, rfl, _⟩ :=
    command_concludes call answer attempts valid answered taken
  obtain ⟨_, counts, ready⟩ := conclude_keeps attempts answer outcome concluded
  have one : AddsOne s (finish outcome) outcome.1.counter := by
    have here := finish_counts outcome
    unfold AddsOne at here ⊢
    rwa [counts] at here
  obtain ⟨error, connects⟩ := finish_fields outcome
  have state := finish_state outcome ready
  rw [counted_iff _ _ one]
  cases answer with
  | rows =>
      obtain ⟨succeeded, read, same⟩ : outcome.2 = .none ∧ outcome.1.counter = .read ∧
          outcome.1.connects = s.connects := by
        obtain rfl := Option.some.inj concluded
        exact ⟨rfl, rfl, rfl⟩
      rw [read]
      have rule := rows_by_rule (error.trans succeeded) (state.mpr ⟨succeeded, read⟩)
        (connects.trans same)
      simp [rule, ReconnectionFails]
  | noRows affected =>
      obtain ⟨succeeded, counted, same⟩ : outcome.2 = .none ∧
          outcome.1.counter = (if 0 < affected.toUInt32 then .write else .other) ∧
          outcome.1.connects = s.connects := by
        obtain rfl := Option.some.inj concluded
        exact ⟨rfl, rfl, rfl⟩
      have closed : (finish outcome).state ≠ .resultSet := by
        intro opened
        have read := (state.mp opened).2
        rw [counted] at read
        split at read <;> cases read
      rw [no_rows_by_rule affected _ (error.trans succeeded) closed (connects.trans same), counted,
        affected_counter_iff]
      simp [ReconnectionFails]
  | error errno =>
      obtain ⟨failed, counted⟩ := check_error_counter_iff errno attempts outcome concluded
      have closed : (finish outcome).state ≠ .resultSet := fun opened => failed (state.mp opened).1
      rw [failed_by_rule _ _ (error ▸ failed) closed (by simp), connects, counted]
      simp

/-- An execution that sends nothing adds to the counter of the call before. -/
theorem nothing_sent_counted_iff (id : Nat) (reply : ExecuteReply) (attempts : List Attempt)
    (valid : s.state ≠ .invalid) (unanswered : answerOf s (.execute id reply attempts) = none)
    (taken : step args s (.execute id reply attempts) = some t) :
    CommandCounted s t none ↔ s.counter = .error := by
  obtain ⟨rfl, _⟩ := nothing_sent id reply attempts valid unanswered taken
  have one : AddsOne s (finish ({ s with state := .ready }, .fatal)) s.counter :=
    finish_counts ({ s with state := .ready }, .fatal)
  obtain ⟨error, connects⟩ := finish_fields ({ s with state := .ready }, .fatal)
  have state := finish_state ({ s with state := .ready }, .fatal) rfl
  have closed : (finish ({ s with state := .ready }, .fatal)).state ≠ .resultSet :=
    fun opened => absurd (state.mp opened).1 DbError.noConfusion
  have failed : (finish ({ s with state := .ready }, .fatal)).error ≠ .none :=
    error ▸ DbError.noConfusion
  rw [counted_iff _ _ one, failed_by_rule _ _ failed closed (by simp), if_pos connects]

/-- The explicit reconnection looks at the outcome. -/
theorem reconnect_counted (attempts : List Attempt) (valid : s.state ≠ .invalid)
    (taken : step args s (.reconnect attempts) = some t) : ReconnectCounted s t := by
  obtain ⟨_, taken⟩ := Option.ite_none_left_eq_some.mp taken
  simp only [dbConnectionReconnect, if_neg valid, freed_first_of_valid valid] at taken
  obtain ⟨outcome, tried, rfl⟩ := Option.map_eq_some_iff.mp taken
  obtain ⟨connected, _, rfl⟩ := Option.map_eq_some_iff.mp tried
  cases connected with
  | true => exact ⟨.reconnect, rfl, by simp [sbCounterInc, connectedAgain],
      by simp [sbCounterInc, connectedAgain]⟩
  | false => exact ⟨.error, rfl, by simp [sbCounterInc, mysqlClose],
      by simp [sbCounterInc, mysqlClose]⟩

theorem prepare_counts (reply : ResultSets.PrepareReply) :
    (dbPrepare args s reply).counts = s.counts := by
  unfold dbPrepare mysqlDrvPrepare
  split
  · rfl
  · cases ResultSets.mysqlDrvPrepare ⟨args.usePs, false⟩ reply <;> cases args.usePs <;> rfl

/-- The condition on a command, by its answer. -/
theorem well_answered (call : Call) (answer : Answer) (attempts : List Attempt)
    (valid : s.state ≠ .invalid) (answered : answerOf s call = some (answer, attempts)) :
    CountsWell args s call ↔ ¬ ReconnectionFails args answer attempts ∧
      ∀ affected, answer = .noRows affected → affected.toUInt32 = 0 → affected = 0 := by
  constructor
  · intro well
    refine ⟨well.reconnected valid answer attempts answered, fun affected this => ?_⟩
    subst this
    exact well.rows valid affected attempts answered
  · rintro ⟨holds, rows⟩
    refine ⟨fun _ other tries same => ?_, fun _ affected tries same => ?_,
      fun _ id tries same => ?_⟩
    · obtain ⟨rfl, rfl⟩ := Prod.mk.inj (Option.some.inj (answered.symm.trans same))
      exact holds
    · obtain ⟨this, _⟩ := Prod.mk.inj (Option.some.inj (answered.symm.trans same))
      exact rows affected this
    · subst same
      cases answered

/-- Without an answer only the counter of the call before matters. -/
theorem well_unanswered (call : Call) (valid : s.state ≠ .invalid)
    (unanswered : answerOf s call = none) :
    CountsWell args s call ↔
      ∀ id attempts, call = .execute id .noMemory attempts → s.counter = .error := by
  constructor
  · exact fun well => well.stale valid
  · intro stale
    refine ⟨fun _ answer attempts answered => ?_, fun _ affected attempts answered => ?_,
      fun _ => stale⟩
    · cases unanswered.symm.trans answered
    · cases unanswered.symm.trans answered

theorem call_counted_iff (call : Call) (prepared : Prepared s)
    (taken : step args s call = some t) : CallCounted s t call ↔ CountsWell args s call := by
  unfold CallCounted
  by_cases invalid : s.state = .invalid
  · have same : t.counts = s.counts := by
      rw [refused_changes call invalid taken]
    have well : CountsWell args s call :=
      ⟨fun valid => absurd invalid valid, fun valid => absurd invalid valid,
        fun valid => absurd invalid valid⟩
    rw [if_pos invalid]
    exact ⟨fun _ => well, fun _ => same⟩
  rw [if_neg invalid]
  cases call with
  | query reply attempts =>
      rw [well_answered _ reply.answer attempts invalid rfl]
      exact command_counted_iff _ reply.answer attempts invalid rfl taken
  | execute id reply attempts =>
      cases answered : answerOf s (.execute id reply attempts) with
      | some result =>
          rw [well_answered _ result.1 result.2 invalid answered]
          exact command_counted_iff _ result.1 result.2 invalid answered taken
      | none =>
          obtain ⟨_, stmt, known, early⟩ := nothing_sent id reply attempts invalid answered taken
          -- a statement of the server has its handle, so only the memory can be missing
          have noMemory : reply = .noMemory := by
            rcases early with this | ⟨server, missing⟩
            · exact this
            · have handle := prepared stmt (List.mem_of_getElem? known) server
              exact absurd (handle.symm.trans missing) (by decide)
          subst noMemory
          rw [well_unanswered _ invalid answered]
          refine (nothing_sent_counted_iff id .noMemory attempts invalid answered taken).trans ?_
          exact ⟨fun stale _ _ _ => stale, fun stale => stale id attempts rfl⟩
  | prepare reply =>
      obtain ⟨_, taken⟩ := Option.ite_none_left_eq_some.mp taken
      obtain rfl := Option.some.inj taken
      rw [well_unanswered _ invalid rfl]
      exact ⟨fun _ _ _ no => (nomatch no), fun _ => prepare_counts reply⟩
  | reconnect attempts =>
      rw [well_unanswered _ invalid rfl]
      exact ⟨fun _ _ _ no => (nomatch no), fun _ => reconnect_counted attempts invalid taken⟩
  | close =>
      obtain ⟨_, taken⟩ := Option.ite_none_left_eq_some.mp taken
      obtain rfl := Option.some.inj taken
      rw [well_unanswered _ invalid rfl]
      exact ⟨fun _ _ _ no => (nomatch no), fun _ => (close_keeps s).2⟩
  | free =>
      obtain ⟨_, taken⟩ := Option.ite_none_left_eq_some.mp taken
      obtain rfl := Option.some.inj taken
      rw [well_unanswered _ invalid rfl]
      exact ⟨fun _ _ _ no => (nomatch no), fun _ => (free_keeps s invalid).2⟩
end Calls

/-! Along a run. -/
section Runs

/-- Wherever the call returns, it has been counted. -/
def Counted (args : Args) (s : Connection) (call : Call) : Prop :=
  ∀ t, step args s call = some t → CallCounted s t call

theorem miscounted (call : Call) (prepared : Prepared s) (taken : step args s call = some t)
    (wrong : ¬ CountsWell args s call) : ¬ Counted args s call :=
  fun counted => wrong ((call_counted_iff call prepared taken).mp (counted t taken))

theorem created_prepared (counts : Counter → UInt64) : Prepared (created counts) :=
  fun _ member => absurd member List.not_mem_nil

/-- The calls of a schedule are all counted by the rule exactly when all meet the
condition. -/
theorem calls_counted_iff (args : Args) (counts : Counter → UInt64) (calls : List Call) :
    Guarded (step args) (Counted args) (created counts) calls ↔
      Guarded (step args) (CountsWell args) (created counts) calls := by
  apply guarded_congr (fun _ call _ prepared taken => step_prepared call prepared taken)
  · intro s call t prepared taken
    rw [← call_counted_iff call prepared taken]
    constructor
    · exact fun counted => counted t taken
    · intro counted u same
      obtain rfl := Option.some.inj (taken.symm.trans same)
      exact counted
  · exact created_prepared counts

/-- Three calls counted wrongly: a query whose reconnection fails, an insertion of 2^32
rows, and an execution without memory behind a query that returned rows. -/
theorem counted_wrongly :
    let args : Args := ⟨[.code 2013], false⟩
    ¬ Guarded (step args) (Counted args) (created fun _ => 0)
        [.query ⟨true, false, 2013, 0, 0⟩ [.aborted]] ∧
      ¬ Guarded (step args) (Counted args) (created fun _ => 0)
        [.query ⟨false, false, 0, 0, 4294967296⟩ []] ∧
      ¬ Guarded (step args) (Counted args) (created fun _ => 0)
        [.prepare .prepared, .query ⟨false, true, 0, 1, 0⟩ [], .execute 0 .noMemory []] := by
  have start := created_prepared fun _ => 0
  refine ⟨fun guarded => ?_, fun guarded => ?_, fun guarded => ?_⟩
  · refine absurd (guarded _ rfl).1 (miscounted _ start rfl fun well => ?_)
    exact well.reconnected ConnState.noConfusion _ _ rfl ⟨2013, rfl, rfl, rfl, rfl⟩
  · refine absurd (guarded _ rfl).1 (miscounted _ start rfl fun well => ?_)
    exact absurd (well.rows ConnState.noConfusion 4294967296 [] rfl rfl) (by decide)
  · have last := ((guarded _ rfl).2 _ rfl).2 _ rfl
    refine absurd last.1 (miscounted _ ?_ rfl fun well => ?_)
    · intro stmt member server
      obtain rfl := List.mem_singleton.mp member
      cases server
    · exact absurd (well.stale ConnState.noConfusion 0 [] rfl) (by decide)
end Runs
end PteSysbench.QueryCounters
