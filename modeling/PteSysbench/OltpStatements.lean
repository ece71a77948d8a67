import PteSysbench.OltpCommon
import Mathlib.Data.Set.Insert

/-!
The statements that a thread of oltp_common.lua holds: what preparing, binding, executing
and closing do to the places of the table `stmt`, the connection behind it and the
parameters bound to each.
-/

namespace PteSysbench.OltpStatements

open DbDriver ResultSets ThrowingScripts OltpCommon
open EmulatedStatements (Param)

/-! Calls that leave the statements of a connection alone. -/
section Calls
variable {args : DriverArgs}

structure Keeps (before after : Connection) : Prop where
  stmts : after.stmts = before.stmts
  prepared : after.prepared = before.prepared
  statement : after.statement = before.statement

theorem finish_keeps {before : Connection} {outcome : Connection × DbError}
    (keeps : Keeps before outcome.1) : Keeps before (finish outcome) := by
  unfold finish
  split
  · exact ⟨keeps.stmts, keeps.prepared, keeps.statement⟩
  · exact ⟨keeps.stmts, keeps.prepared, keeps.statement⟩

theorem store_result_keeps (con : Connection) (sender : Option Nat) (reply : Reply) :
    Keeps con (storeResult con sender reply).1 := by
  cases reply <;> exact ⟨rfl, rfl, rfl⟩

theorem store_stmt_result_keeps (con : Connection) (id : Nat) (reply : Reply) :
    Keeps con (storeStmtResult con id reply).1 := by
  cases reply <;> exact ⟨rfl, rfl, rfl⟩

theorem drv_query_keeps (args : DriverArgs) (con : Connection) (sender : Option Nat)
    (reply : Reply) : Keeps con (mysqlDrvQuery args con sender reply).1 := by
  unfold mysqlDrvQuery
  split
  · exact ⟨rfl, rfl, rfl⟩
  · have stored := store_result_keeps { con with origin := sender } sender reply
    exact ⟨stored.stmts, stored.prepared, stored.statement⟩

theorem drv_execute_keeps (args : DriverArgs) (con : Connection) (id : Nat) (stmt : Statement)
    (buffer : Bool) (reply : Reply) :
    Keeps con (mysqlDrvExecute args con id stmt buffer reply).1 := by
  unfold mysqlDrvExecute
  split
  · exact ⟨rfl, rfl, rfl⟩
  split
  · split
    · exact drv_query_keeps args con (some id) reply
    · exact ⟨rfl, rfl, rfl⟩
  split
  · have stored := store_stmt_result_keeps { con with origin := some id } id reply
    exact ⟨stored.stmts, stored.prepared, stored.statement⟩
  · exact ⟨rfl, rfl, rfl⟩

theorem execute_keeps {con : Connection} (valid : ResultsInvariant args con) (id : Nat)
    (stmt : Statement) (buffer : Bool) (reply : Reply) :
    (dbExecute args con id stmt buffer reply).stmts = con.stmts ∧
      (dbExecute args con id stmt buffer reply).prepared = con.prepared := by
  have same := (freed_first_settles args con valid).2.1
  have keeps := finish_keeps (drv_execute_keeps args
    { freedFirst args con with statement := some id } id stmt buffer reply)
  exact ⟨keeps.stmts.trans same.stmts, keeps.prepared.trans same.prepared⟩

theorem freed_statement {con : Connection} (valid : ResultsInvariant args con)
    (none_ : con.statement = none) : (freedFirst args con).statement = none := by
  rw [(freed_first_settles args con valid).2.2, none_, ite_self]

theorem query_keeps {con : Connection} (valid : ResultsInvariant args con)
    (none_ : con.statement = none) (reply : Reply) :
    Keeps con (dbQuery args con reply) := by
  have same := (freed_first_settles args con valid).2.1
  have keeps := finish_keeps (drv_query_keeps args (freedFirst args con) none reply)
  refine ⟨keeps.stmts.trans same.stmts, keeps.prepared.trans same.prepared, ?_⟩
  exact keeps.statement.trans ((freed_statement valid none_).trans none_.symm)

/-- No statement has been executed, so a query opens its results cleanly. -/
theorem query_clean {con : Connection} (valid : ResultsInvariant args con)
    (none_ : con.statement = none) (reply : Reply) :
    ResultsInvariant args (dbQuery args con reply) := by
  have call := query_call args con reply valid
  refine call.2 (call.1.mpr ?_)
  cases reply with
  | rows => exact fun _ _ => none_
  | failed ignorable reconnected | noRows affected => trivial

theorem live_open {con : Connection} {id : Nat} (live : Live con id) :
    ∃ stmt, openStatement con id = some stmt := by
  obtain ⟨stmt, here, notClosed⟩ := live
  exact ⟨stmt, by simp [openStatement, here, notClosed]⟩

/-- With the result set freed first there is none left to free. -/
theorem close_eq {con : Connection} (valid : ResultsInvariant args con) (id : Nat)
    (stmt : Statement) :
    dbClose args con id stmt =
      { freedFirst args con with
        stmts := fun i =>
          if i = id then some { stmt with handle := false, closed := true } else con.stmts i } := by
  obtain ⟨settled, same, _⟩ := freed_first_settles args con valid
  have notShown : ¬ ((freedFirst args con).state = .resultSet ∧
      (freedFirst args con).statement = some id) := by simp [settled.ready]
  unfold dbClose
  simp only [if_neg notShown, same.stmts]

theorem live_close_iff {con : Connection} (valid : ResultsInvariant args con) (id : Nat)
    (stmt : Statement) (other : Nat) :
    Live (dbClose args con id stmt) other ↔ Live con other ∧ other ≠ id := by
  rw [close_eq valid]
  unfold Live
  by_cases this : other = id
  · simp [this]
  · simp [this]

theorem close_keeps {con : Connection} (valid : ResultsInvariant args con) (id : Nat)
    (stmt : Statement) :
    (dbClose args con id stmt).prepared = con.prepared ∧
      (con.statement = none → (dbClose args con id stmt).statement = none) := by
  rw [close_eq valid]
  exact ⟨(freed_first_settles args con valid).2.1.prepared, freed_statement valid⟩

/-- A connection with one more statement. -/
def added (con : Connection) (stmt : Statement) : Connection :=
  { con with
    stmts := fun i => if i = con.prepared then some stmt else con.stmts i
    prepared := con.prepared + 1 }

/-- An execution of the statement needs no more than the server's answer. -/
def Works (args : DriverArgs) (stmt : Statement) : Prop :=
  args.dryRun = true ∨ stmt.emulated = true ∨ stmt.handle = true

theorem prepare_added (args : DriverArgs) (con : Connection) (reply : PrepareReply) :
    (∃ stmt, stmt.closed = false ∧ Works args stmt ∧ dbPrepare args con reply = added con stmt) ∨
      reply = .refused ∧ dbPrepare args con reply = { con with error := .fatal } := by
  unfold dbPrepare mysqlDrvPrepare
  by_cases dry : args.dryRun = true
  · exact Or.inl ⟨_, rfl, Or.inl dry, by rw [if_pos dry]; rfl⟩
  rw [if_neg dry]
  by_cases server : args.usePs = true
  · rw [if_pos server]
    cases reply with
    | refused => exact Or.inr ⟨rfl, rfl⟩
    | unsupported => exact Or.inl ⟨_, rfl, Or.inr (Or.inl rfl), rfl⟩
    | prepared => exact Or.inl ⟨_, rfl, Or.inr (Or.inr rfl), rfl⟩
  · rw [if_neg server]
    exact Or.inl ⟨_, rfl, Or.inr (Or.inl rfl), rfl⟩

theorem finish_error (outcome : Connection × DbError) : (finish outcome).error = outcome.2 := by
  unfold finish
  split <;> rfl

theorem drv_query_calm (args : DriverArgs) (con : Connection) (sender : Option Nat) {reply : Reply}
    (calm : ∀ ignorable reconnected, reply ≠ .failed ignorable reconnected) :
    (mysqlDrvQuery args con sender reply).2 = .none := by
  unfold mysqlDrvQuery
  split
  · rfl
  · cases reply with
    | failed ignorable reconnected => exact absurd rfl (calm ignorable reconnected)
    | noRows affected | rows => rfl

theorem query_calm (args : DriverArgs) (con : Connection) {reply : Reply}
    (calm : ∀ ignorable reconnected, reply ≠ .failed ignorable reconnected) :
    (dbQuery args con reply).error = .none :=
  (finish_error _).trans (drv_query_calm args _ none calm)

theorem execute_calm (con : Connection) (id : Nat) {stmt : Statement} (works : Works args stmt)
    {reply : Reply} (calm : ∀ ignorable reconnected, reply ≠ .failed ignorable reconnected) :
    (dbExecute args con id stmt true reply).error = .none := by
  refine (finish_error _).trans ?_
  unfold mysqlDrvExecute
  by_cases dry : args.dryRun = true
  · rw [if_pos dry]
  rw [if_neg dry]
  by_cases emulated : stmt.emulated = true
  · rw [if_pos emulated, if_pos rfl]
    exact drv_query_calm args _ _ calm
  rw [if_neg emulated, if_pos ((works.resolve_left dry).resolve_left emulated)]
  cases reply with
  | failed ignorable reconnected => exact absurd rfl (calm ignorable reconnected)
  | noRows affected | rows => rfl

theorem live_added_iff {con : Connection} {stmt : Statement} (fresh : stmt.closed = false)
    (id : Nat) : Live (added con stmt) id ↔ Live con id ∨ id = con.prepared := by
  unfold Live added
  by_cases this : id = con.prepared
  · simp [this, fresh]
  · simp [this]

theorem live_lt {con : Connection} (valid : ResultsInvariant args con) {id : Nat}
    (live : Live con id) : id < con.prepared := by
  obtain ⟨stmt, here, _⟩ := live
  by_contra beyond
  rw [valid.unprepared id (Nat.not_lt.mp beyond)] at here
  cases here
end Calls

/-! The places of a thread. -/
section Places

/-- `sysbench.opt` once oltp_point_select.lua has set its number of queries. -/
def settled (b : Benchmark) (opt : Options) : Options :=
  if b = .oltpPointSelect then { opt with pointSelects := 1 } else opt

def tablePlaces (opt : Options) (key : Key) : List Place :=
  (tableNumbers opt).map fun t => .table t key

def transactionPlaces (opt : Options) : List Place :=
  if opt.skipTrx then [] else [.begin_, .commit]

def keyPlaces (opt : Options) (keys : List Key) : List Place := keys.flatMap (tablePlaces opt)

def rangePlaces (opt : Options) : List Place :=
  if opt.rangeSelects then keyPlaces opt rangeKeys else []

/-- The places that `prepare_statements` fills, in its order. -/
def preparedPlaces (b : Benchmark) (opt : Options) : List Place :=
  match b with
  | .oltpDelete => keyPlaces opt [.deletes]
  | .oltpInsert => []
  | .oltpPointSelect => keyPlaces opt [.pointSelects]
  | .oltpReadOnly => keyPlaces opt [.pointSelects] ++ transactionPlaces opt ++ rangePlaces opt
  | .oltpReadWrite =>
      transactionPlaces opt ++ keyPlaces opt [.pointSelects] ++ rangePlaces opt ++
        keyPlaces opt writeKeys
  | .oltpUpdateIndex => keyPlaces opt [.indexUpdates]
  | .oltpUpdateNonIndex => keyPlaces opt [.nonIndexUpdates]
  | .oltpWriteOnly => transactionPlaces opt ++ keyPlaces opt writeKeys

/-- A parameter of the type it was created with. -/
def Fits : BindType → Param → Prop
  | .int, .bigint _ _ => True
  | .char maxLen, .varchar param => param.buffer.length = maxLen
  | _, _ => False

/-- The statement of a place has its text and parameters of its types. -/
def Serves (w : World) (id : Nat) : Place → Prop
  | .table t key => w.texts id = textOf (.table t key) ∧ w.param (.table t key) = some id ∧
      List.Forall₂ Fits (stmtDefs key).types (w.buffers id)
  | place => w.texts id = textOf place ∧ w.buffers id = []

/-- No answer that reports a failure. -/
structure Calm (answers : Answers) : Prop where
  prepares : ∀ answer ∈ answers.prepares, answer.1 ≠ .refused
  executes : ∀ answer ∈ answers.executes, answer.1 = true ∧
    ∀ ignorable reconnected, answer.2.1 ≠ .failed ignorable reconnected
  reconnects : ∀ succeeds ∈ answers.reconnects, succeeds = true

/-- No failing prepare is let through as ignorable by the hook, and in a quiet run there
is no failure at all. -/
structure Admitted (quiet : Prop) (cfg : Setting) (answers : Answers) : Prop where
  severe : ∀ answer ∈ answers.prepares, answer.1 = .refused →
    cfg.ignorable answer.2.errno = false
  calm : quiet → Calm answers

/-- The open statements are those of the places in `kept`, one each, and the rest of the
table `stmt` is left over from places that are wanted again. -/
structure Held (quiet : Prop) (cfg : Setting) (opt : Options) (wanted : List Place)
    (kept : Set Place) (w : World) : Prop where
  options : w.opt = opt
  results : ResultsInvariant cfg.args w.con
  made : ∀ place ∈ kept, ∃ id, w.stmt place = some id ∧ Live w.con id ∧ Serves w id place
  owned : ∀ id, Live w.con id → ∃ place ∈ kept, w.stmt place = some id
  apart : ∀ p ∈ kept, ∀ q ∈ kept, w.stmt p = w.stmt q → p = q
  within : ∀ place, w.stmt place ≠ none ∨ w.param place ≠ none → place ∈ wanted
  blank : ∀ id, w.con.prepared ≤ id → w.buffers id = []
  owner : w.con.statement ≠ none → wanted ≠ []
  works : ∀ id stmt, w.con.stmts id = some stmt → stmt.closed = false → Works cfg.args stmt
  admitted : Admitted quiet cfg w.answers
end Places

/-! Steps that the places survive. -/
section Survival
variable {quiet : Prop} {cfg : Setting} {opt : Options} {wanted : List Place} {kept : Set Place}
  {w v : World}

/-- What the places and their statements are read from. -/
structure SameTables (w v : World) : Prop where
  opt : v.opt = w.opt
  stmt : v.stmt = w.stmt
  param : v.param = w.param
  texts : v.texts = w.texts
  buffers : v.buffers = w.buffers
  stmts : v.con.stmts = w.con.stmts
  prepared : v.con.prepared = w.con.prepared

theorem live_congr {before after : Connection} (same : after.stmts = before.stmts) (id : Nat) :
    Live after id ↔ Live before id := by
  unfold Live
  rw [same]

theorem serves_congr (texts : v.texts = w.texts) (param : v.param = w.param)
    {id : Nat} (buffers : v.buffers id = w.buffers id) (place : Place) :
    Serves v id place ↔ Serves w id place := by
  cases place <;> simp only [Serves, texts, param, buffers]

theorem held_same (held : Held quiet cfg opt wanted kept w) (same : SameTables w v)
    (results : ResultsInvariant cfg.args v.con) (owner : v.con.statement ≠ none → wanted ≠ [])
    (admitted : Admitted quiet cfg v.answers) : Held quiet cfg opt wanted kept v where
  options := same.opt.trans held.options
  results := results
  made place member := by
    obtain ⟨id, here, live, serves⟩ := held.made place member
    refine ⟨id, same.stmt ▸ here, (live_congr same.stmts id).mpr live, ?_⟩
    exact (serves_congr same.texts same.param (congrFun same.buffers id) place).mpr serves
  owned id live := by
    obtain ⟨place, member, here⟩ := held.owned id ((live_congr same.stmts id).mp live)
    exact ⟨place, member, same.stmt ▸ here⟩
  apart p first q second equal := held.apart p first q second (same.stmt ▸ equal)
  within place present := held.within place (same.stmt ▸ same.param ▸ present)
  blank id beyond := by
    rw [same.buffers]
    exact held.blank id (same.prepared ▸ beyond)
  owner := owner
  works id stmt here := held.works id stmt (same.stmts ▸ here)
  admitted := admitted

/-- The statement of a kept place is open. -/
theorem held_open (held : Held quiet cfg opt wanted kept w) {place : Place} (member : place ∈ kept)
    {id : Nat} (here : w.stmt place = some id) :
    Live w.con id ∧ Serves w id place ∧ ∃ stmt, openStatement w.con id = some stmt := by
  obtain ⟨other, found, live, serves⟩ := held.made place member
  obtain rfl := Option.some.inj (here.symm.trans found)
  exact ⟨live, serves, live_open live⟩

theorem held_within (held : Held quiet cfg opt wanted kept w) {place : Place} {id : Nat}
    (here : w.stmt place = some id) : place ∈ wanted :=
  held.within place (Or.inl (by simp [here]))

/-- An execution of the statement at a place. -/
theorem held_execute (held : Held quiet cfg opt wanted kept w) {place : Place} {id : Nat}
    {stmt : Statement} (here : w.stmt place = some id)
    (found : openStatement w.con id = some stmt) (buffer : Bool) (reply : Reply)
    (error : SqlError) (sent : List Request) :
    Held quiet cfg opt wanted kept { w with
      con := dbExecute cfg.args w.con id stmt buffer reply, error := error, sent := sent } := by
  obtain ⟨stmts, prepared⟩ := execute_keeps held.results id stmt buffer reply
  refine held_same held ⟨rfl, rfl, rfl, rfl, rfl, stmts, prepared⟩ ?_ ?_ held.admitted
  · exact execute_call cfg.args w.con id stmt buffer reply held.results found
  · exact fun _ => List.ne_nil_of_mem (held_within held here)

theorem held_query (held : Held quiet cfg opt [] kept w) (reply : Reply) (error : SqlError)
    (sent : List Request) :
    Held quiet cfg opt [] kept { w with
      con := dbQuery cfg.args w.con reply, error := error, sent := sent } := by
  have none_ : w.con.statement = none := by
    by_contra some_
    exact held.owner some_ rfl
  have keeps := query_keeps held.results none_ reply
  refine held_same held ⟨rfl, rfl, rfl, rfl, rfl, keeps.stmts, keeps.prepared⟩ ?_ ?_ held.admitted
  · exact query_clean held.results none_ reply
  · exact fun some_ => absurd (keeps.statement.trans none_) some_

/-- The parameter set of a place is the one bound to its statement. -/
theorem held_param (held : Held quiet cfg opt wanted {place | place ∈ wanted} w) {place : Place}
    {id : Nat} (bound : w.param place = some id) (table : ∃ t key, place = .table t key) :
    w.stmt place = some id ∧ Live w.con id := by
  have member := held.within place (Or.inr (by simp [bound]))
  obtain ⟨other, here, live, serves⟩ := held.made place member
  obtain ⟨t, key, rfl⟩ := table
  obtain rfl := Option.some.inj (bound.symm.trans serves.2.1)
  exact ⟨here, live⟩

theorem fits_modify {types : List BindType} {params : List Param}
    (fits : List.Forall₂ Fits types params) (update : Param → Param)
    (keeps : ∀ type param, Fits type param → Fits type (update param)) (i : Nat) :
    List.Forall₂ Fits types (params.modify i update) := by
  induction fits generalizing i with
  | nil => simp
  | cons first rest ih =>
      cases i with
      | zero => exact .cons (keeps _ _ first) rest
      | succ i => exact .cons first (ih i)

/-- A parameter updated in place. -/
theorem held_update (held : Held quiet cfg opt wanted {place | place ∈ wanted} w) {t : Nat}
    {key : Key} {id : Nat} (bound : w.param (.table t key) = some id) (i : Nat)
    (update : Param → Param) (keeps : ∀ type param, Fits type param → Fits type (update param)) :
    Held quiet cfg opt wanted {place | place ∈ wanted}
      { w with buffers := Function.update w.buffers id ((w.buffers id).modify i update) } where
  options := held.options
  results := held.results
  made place member := by
    obtain ⟨here, live⟩ := held_param held bound ⟨t, key, rfl⟩
    obtain ⟨other, found, alive, serves⟩ := held.made place member
    refine ⟨other, found, alive, ?_⟩
    by_cases same : other = id
    · subst same
      have home := held.within _ (Or.inr (by rw [bound]; exact Option.some_ne_none other))
      obtain rfl := held.apart place member _ home (found.trans here.symm)
      refine ⟨serves.1, serves.2.1, ?_⟩
      simp only [Function.update_self]
      exact fits_modify serves.2.2 update keeps i
    · have unmoved : Function.update w.buffers id ((w.buffers id).modify i update) other =
          w.buffers other := Function.update_of_ne same _ _
      exact (serves_congr (w := w) (v := { w with
        buffers := Function.update w.buffers id ((w.buffers id).modify i update) })
        rfl rfl unmoved place).mpr serves
  owned := held.owned
  apart := held.apart
  within := held.within
  blank other beyond := by
    have low := live_lt held.results (held_param held bound ⟨t, key, rfl⟩).2
    have apart : other ≠ id := Nat.ne_of_gt (Nat.lt_of_lt_of_le low beyond)
    show Function.update w.buffers id ((w.buffers id).modify i update) other = []
    rw [Function.update_of_ne apart]
    exact held.blank other beyond
  owner := held.owner
  works := held.works
  admitted := held.admitted
end Survival

/-! Closing. -/
section Closing
variable {quiet : Prop} {cfg : Setting} {opt : Options} {wanted : List Place} {kept : Set Place}
  {w : World}

theorem held_close (held : Held quiet cfg opt wanted kept w) {place : Place} (member : place ∈ kept)
    {id : Nat} (here : w.stmt place = some id) (stmt : Statement)
    (found : openStatement w.con id = some stmt) :
    Held quiet cfg opt wanted (kept \ {place})
      { w with con := dbClose cfg.args w.con id stmt } := by
  have live := live_close_iff held.results id stmt
  obtain ⟨prepared, owner⟩ := close_keeps held.results id stmt
  constructor
  case options => exact held.options
  case results =>
    exact close_invariant cfg.args w.con id stmt held.results (open_statement_spec _ _ _ found).1
  case made =>
    intro other ⟨inside, different⟩
    obtain ⟨number, found, alive, serves⟩ := held.made other inside
    have distinct : number ≠ id := by
      intro same
      have equal : w.stmt other = w.stmt place := by rw [found, here, same]
      exact different (held.apart other inside place member equal)
    refine ⟨number, found, (live number).mpr ⟨alive, distinct⟩, ?_⟩
    exact (serves_congr (w := w) rfl rfl rfl other).mpr serves
  case owned =>
    intro number alive
    obtain ⟨alive, distinct⟩ := (live number).mp alive
    obtain ⟨other, inside, found⟩ := held.owned number alive
    refine ⟨other, ⟨inside, ?_⟩, found⟩
    rintro rfl
    exact distinct (Option.some.inj (found.symm.trans here))
  case apart => exact fun p first q second => held.apart p first.1 q second.1
  case within => exact held.within
  case blank => exact fun number beyond => held.blank number (prepared ▸ beyond)
  case owner => exact fun some_ => held.owner fun none_ => some_ (owner none_)
  case works =>
    intro number made here notClosed
    rw [close_eq held.results] at here
    by_cases same : number = id
    · cases (if_pos same).symm.trans here
      cases notClosed
    · exact held.works number made ((if_neg same).symm.trans here) notClosed
  case admitted => exact held.admitted

theorem meets_close_place {thrown : Thrown → World → Prop} (place : Place)
    (member : place ∈ wanted → place ∈ kept) :
    Meets (Held quiet cfg opt wanted kept) (closePlace cfg place)
      (fun _ => Held quiet cfg opt wanted (kept \ {place})) thrown := by
  refine meets_read fun w held => ?_
  cases here : w.stmt place with
  | none =>
      refine meets_pure () ?_
      rintro _ rfl
      have outside : place ∉ kept := by
        intro inside
        obtain ⟨id, found, _⟩ := held.made place inside
        simp [here] at found
      rwa [Set.sdiff_singleton_eq_self outside]
  | some id =>
      have inside := member (held_within held here)
      obtain ⟨_, _, stmt, found⟩ := held_open held inside here
      refine meets_read ?_
      rintro _ rfl
      simp only [found, if_neg held.results.open_]
      exact meets_set _ fun _ _ => held_close held inside here stmt found

/-- The places whose statements `close_statements` has yet to close. -/
def unclosed (wanted passed : List Place) : Set Place :=
  {place | place ∈ wanted ∧ place ∉ passed}

theorem unclosed_after (wanted passed : List Place) (place : Place) :
    unclosed wanted passed \ {place} = unclosed wanted (passed ++ [place]) := by
  ext other
  simp [unclosed, and_assoc]

theorem unclosed_none (wanted order : List Place) (listed : ∀ place ∈ wanted, place ∈ order) :
    unclosed wanted order = ∅ := by
  ext place
  simpa [unclosed] using listed place

theorem unclosed_all (wanted : List Place) : unclosed wanted [] = {place | place ∈ wanted} := by
  ext place
  simp [unclosed]

theorem meets_close_statements {thrown : Thrown → World → Prop} (listed : ∀ place ∈ wanted,
    place ∈ closingOrder cfg opt) (once : (closingOrder cfg opt).Nodup) :
    Meets (Held quiet cfg opt wanted {place | place ∈ wanted}) (closeStatements cfg)
      (fun _ => Held quiet cfg opt wanted ∅) thrown := by
  have loop : Meets (Held quiet cfg opt wanted (unclosed wanted []))
      ((closingOrder cfg opt).forM (closePlace cfg))
      (fun _ => Held quiet cfg opt wanted (unclosed wanted ([] ++ closingOrder cfg opt)))
      thrown := by
    refine meets_for_each (fun passed => Held quiet cfg opt wanted (unclosed wanted passed))
      (closePlace cfg) [] (closingOrder cfg opt) fun passed place rest split => ?_
    have fresh : place ∉ passed := by
      intro again
      rw [List.nil_append] at split
      rw [split] at once
      exact (List.nodup_append.mp once).2.2 place again place List.mem_cons_self rfl
    rw [← unclosed_after]
    exact meets_close_place place fun inside => ⟨inside, fresh⟩
  rw [unclosed_all, List.nil_append, unclosed_none wanted _ listed] at loop
  refine meets_read fun w held => ?_
  rw [held.options]
  exact meets_from loop held
end Closing

/-! Preparing. -/
section Preparing
variable {quiet : Prop} {cfg : Setting} {opt : Options} {wanted : List Place} {kept : Set Place}
  {w : World}

/-- The state once a new statement serves a place. -/
def hold (w : World) (stmt : Statement) (place : Place) : World :=
  { w with
    con := added w.con stmt
    texts := Function.update w.texts w.con.prepared (textOf place)
    stmt := Function.update w.stmt place (some w.con.prepared)
    param := match place with
      | .table t key => Function.update w.param (.table t key) (some w.con.prepared)
      | _ => w.param
    buffers := match place with
      | .table _ key =>
          Function.update w.buffers w.con.prepared ((stmtDefs key).types.map bindCreate)
      | _ => w.buffers }

theorem created_fits (types : List BindType) : List.Forall₂ Fits types (types.map bindCreate) := by
  induction types with
  | nil => exact .nil
  | cons type rest ih =>
      refine .cons ?_ ih
      cases type <;> simp [bindCreate, Fits, EmulatedStatements.bindCreate]

theorem hold_serves (held : Held quiet cfg opt wanted kept w) (stmt : Statement) (place : Place) :
    Serves (hold w stmt place) w.con.prepared place := by
  cases place with
  | table t key => exact ⟨by simp [hold], by simp [hold], by simpa [hold] using created_fits _⟩
  | begin_ | commit =>
      exact ⟨by simp [hold], held.blank _ (Nat.le_refl _)⟩

theorem hold_serves_other {id : Nat} {place other : Place} (old : id < w.con.prepared)
    (different : other ≠ place) (stmt : Statement) (serves : Serves w id other) :
    Serves (hold w stmt place) id other := by
  have apart : id ≠ w.con.prepared := Nat.ne_of_lt old
  cases place <;> cases other <;> simp_all [Serves, hold]

theorem hold_buffers {id : Nat} (beyond : w.con.prepared + 1 ≤ id) (stmt : Statement)
    (place : Place) : (hold w stmt place).buffers id = w.buffers id := by
  have apart : id ≠ w.con.prepared := Nat.ne_of_gt beyond
  cases place <;> simp [hold, apart]

theorem hold_param {place other : Place} (stmt : Statement)
    (present : (hold w stmt place).param other ≠ none) :
    other = place ∨ w.param other ≠ none := by
  by_cases same : other = place
  · exact Or.inl same
  · refine Or.inr ?_
    cases place <;> simp_all [hold]

theorem held_hold (held : Held quiet cfg opt wanted kept w) {place : Place} (fresh : place ∉ kept)
    (inside : place ∈ wanted) {stmt : Statement} (notClosed : stmt.closed = false)
    (works : Works cfg.args stmt) (results : ResultsInvariant cfg.args (added w.con stmt)) :
    Held quiet cfg opt wanted (insert place kept) (hold w stmt place) := by
  have live : ∀ id, Live (added w.con stmt) id ↔ Live w.con id ∨ id = w.con.prepared :=
    live_added_iff notClosed
  have different : ∀ other ∈ kept, other ≠ place := fun other member same => fresh (same ▸ member)
  have number : ∀ other ∈ kept, ∃ id, w.stmt other = some id ∧ id < w.con.prepared ∧
      Live w.con id ∧ Serves w id other := by
    intro other member
    obtain ⟨id, here, alive, serves⟩ := held.made other member
    exact ⟨id, here, live_lt held.results alive, alive, serves⟩
  have unmoved : ∀ other ∈ kept, (hold w stmt place).stmt other = w.stmt other :=
    fun other member => Function.update_of_ne (different other member) _ _
  have there : (hold w stmt place).stmt place = some w.con.prepared := Function.update_self ..
  constructor
  case options => exact held.options
  case results => exact results
  case made =>
    intro other member
    rcases Set.mem_insert_iff.mp member with rfl | old
    · exact ⟨_, there, (live _).mpr (Or.inr rfl), hold_serves held stmt other⟩
    · obtain ⟨id, here, low, alive, serves⟩ := number other old
      exact ⟨id, (unmoved other old).trans here, (live id).mpr (Or.inl alive),
        hold_serves_other low (different other old) stmt serves⟩
  case owned =>
    intro id alive
    rcases (live id).mp alive with old | rfl
    · obtain ⟨other, member, here⟩ := held.owned id old
      exact ⟨other, Set.mem_insert_of_mem _ member, (unmoved other member).trans here⟩
    · exact ⟨place, Set.mem_insert _ _, there⟩
  case apart =>
    have never : ∀ other ∈ kept, (hold w stmt place).stmt other ≠ some w.con.prepared := by
      intro other member same
      obtain ⟨id, here, low, _⟩ := number other member
      rw [unmoved other member, here] at same
      exact absurd (Option.some.inj same) (Nat.ne_of_lt low)
    intro p first q second equal
    rcases Set.mem_insert_iff.mp first with rfl | first
    · rcases Set.mem_insert_iff.mp second with rfl | second
      · rfl
      · exact absurd (equal.symm.trans there) (never q second)
    · rcases Set.mem_insert_iff.mp second with rfl | second
      · exact absurd (equal.trans there) (never p ‹_›)
      · rw [unmoved p first, unmoved q second] at equal
        exact held.apart p first q second equal
  case within =>
    intro other present
    by_cases same : other = place
    · exact same ▸ inside
    · refine held.within other ?_
      rcases present with present | present
      · exact Or.inl (by rwa [show (hold w stmt place).stmt other = w.stmt other from
          Function.update_of_ne same _ _] at present)
      · exact Or.inr ((hold_param stmt present).resolve_left same)
  case blank =>
    intro id beyond
    rw [hold_buffers beyond]
    exact held.blank id (Nat.le_of_succ_le beyond)
  case owner => exact held.owner
  case works =>
    intro id made here open_
    by_cases same : id = w.con.prepared
    · cases (if_pos same).symm.trans here
      exact works
    · exact held.works id made ((if_neg same).symm.trans here) open_
  case admitted => exact held.admitted

/-- The answer to a prepare has been used. -/
def answered (w : World) : World :=
  { w with answers := { w.answers with prepares := w.answers.prepares.tail } }

theorem held_answered (held : Held quiet cfg opt wanted kept w) :
    Held quiet cfg opt wanted kept (answered w) :=
  held_same held ⟨rfl, rfl, rfl, rfl, rfl, rfl, rfl⟩ held.results held.owner
    ⟨fun answer member => held.admitted.severe answer (List.mem_of_mem_tail member), fun calm =>
      ⟨fun answer member => (held.admitted.calm calm).prepares answer (List.mem_of_mem_tail member),
        (held.admitted.calm calm).executes, (held.admitted.calm calm).reconnects⟩⟩

/-- A refused prepare restarts no event, and does not happen in a quiet run. -/
def Final (quiet : Prop) (cfg : Setting) (answer : PrepareReply × SqlError) : Prop :=
  answer.1 = .refused → ¬ quiet ∧ (answer.2.described = true → cfg.ignorable answer.2.errno = false)

theorem meets_next_prepare {thrown : Thrown → World → Prop}
    (held : Held quiet cfg opt wanted kept w) :
    Meets (fun v => v = w) nextPrepare (fun given v => v = answered w ∧ Final quiet cfg given)
      thrown := by
  refine meets_modify_get _ fun v same => ?_
  subst v
  refine ⟨rfl, ?_⟩
  cases answers : w.answers.prepares with
  | nil => exact fun refused => nomatch refused
  | cons first rest =>
      have member : first ∈ w.answers.prepares := by simp [answers]
      intro refused
      exact ⟨fun calm => (held.admitted.calm calm).prepares first member refused,
        fun _ => held.admitted.severe first member refused⟩

/-- An error that ends the thread, or a reconnect's crash: none of a quiet run. -/
def Ends (quiet : Prop) (thrown : Thrown) (_ : World) : Prop :=
  (thrown = .other ∨ thrown = .nullRead) ∧ ¬ quiet

/-- A fatal error that no hook lets through ends the thread. -/
theorem meets_check_fatal {after : Unit → World → Prop} :
    Meets (fun w => w.con.error = .fatal ∧ ¬ quiet ∧
        (w.error.described = true → cfg.ignorable w.error.errno = false))
      (checkError cfg) after (Ends quiet) := by
  refine meets_read fun w ⟨fatal, loud, final⟩ => ?_
  rw [if_neg (by simp [fatal])]
  by_cases described : w.error.described = true
  · rw [if_neg (by simp [described]), if_neg (by simp [fatal, final described])]
    exact meets_throw _ fun _ _ => ⟨.inl rfl, loud⟩
  · rw [if_pos described]
    exact meets_throw _ fun _ _ => ⟨.inl rfl, loud⟩

/-- A prepare that fails ends the thread. -/
theorem meets_prepare (held : Held quiet cfg opt wanted kept w) (text : List UInt8) :
    Meets (fun v => v = w) (prepare cfg text)
      (fun made v => made = some w.con.prepared ∧ ∃ stmt : Statement, stmt.closed = false ∧
        Works cfg.args stmt ∧ ResultsInvariant cfg.args (added w.con stmt) ∧
        v = { answered w with
          con := added w.con stmt
          texts := Function.update w.texts w.con.prepared text })
      (Ends quiet) := by
  refine meets_bind (meets_next_prepare held) fun (reply, error) => ?_
  refine meets_read fun v ⟨same, final⟩ => ?_
  subst v
  have opened : (answered w).con.state ≠ .invalid := held.results.open_
  rw [if_neg opened]
  rcases prepare_added cfg.args w.con reply with ⟨stmt, notClosed, works, made⟩ | ⟨refused, failed⟩
  · have more : (answered w).con.prepared < (dbPrepare cfg.args (answered w).con reply).prepared :=
      made ▸ Nat.lt_succ_self w.con.prepared
    rw [if_pos more]
    refine meets_set_then _ (meets_pure _ fun v same => ?_)
    refine ⟨rfl, stmt, notClosed, works,
      made ▸ prepare_invariant cfg.args w.con reply held.results, ?_⟩
    rw [same, ← made]
    rfl
  · have less : ¬ (answered w).con.prepared <
        (dbPrepare cfg.args (answered w).con reply).prepared :=
      failed ▸ Nat.lt_irrefl w.con.prepared
    rw [if_neg less]
    refine meets_set_then _ (meets_bind ?_ fun _ => meets_pure _ fun _ impossible => impossible)
    refine meets_weaken meets_check_fatal ?_ (fun _ _ impossible => impossible)
      fun _ _ known => known
    rintro _ rfl
    exact ⟨by rw [show (answered w).con = w.con from rfl, failed], final refused⟩

theorem meets_prepare_for_table (t : Nat) (key : Key) (fresh : .table t key ∉ kept)
    (inside : .table t key ∈ wanted) :
    Meets (Held quiet cfg opt wanted kept) (prepareForTable cfg key t)
      (fun _ => Held quiet cfg opt wanted (insert (.table t key) kept))
      (Ends quiet) := by
  refine meets_at fun w held => ?_
  refine meets_bind (meets_prepare held (textOf (.table t key))) fun made => ?_
  refine meets_modify_then _ fun v ⟨number, stmt, notClosed, works, results, same⟩ => ?_
  subst number same
  have opened : openStatement (added w.con stmt) w.con.prepared = some stmt := by
    simp [openStatement, added, notClosed]
  refine meets_modify_then _ fun v same => ?_
  subst same
  refine meets_read ?_
  rintro _ rfl
  simp only [opened]
  exact meets_set _ fun _ _ => held_hold (held_answered held) fresh inside notClosed works
    results

theorem insert_passed (passed : List Place) (place : Place) :
    insert place {other | other ∈ passed} = {other | other ∈ passed ++ [place]} := by
  ext other
  simp [or_comm]

theorem next_fresh {passed rest : List Place} {place : Place}
    (split : wanted = passed ++ place :: rest) (once : wanted.Nodup) : place ∉ passed := by
  intro again
  rw [split] at once
  exact (List.nodup_append.mp once).2.2 place again place List.mem_cons_self rfl

theorem next_wanted {passed rest : List Place} {place : Place}
    (split : wanted = passed ++ place :: rest) : place ∈ wanted := by
  simp [split]

/-- `prepare_begin` and `prepare_commit`. -/
theorem meets_prepare_bracket (place : Place) (bracket : place = .begin_ ∨ place = .commit)
    (passed rest : List Place) (split : wanted = passed ++ place :: rest) (once : wanted.Nodup) :
    Meets (Held quiet cfg opt wanted {place | place ∈ passed}) (do
      let made ← prepare cfg (textOf place)
      setStmt place made)
      (fun _ => Held quiet cfg opt wanted {other | other ∈ passed ++ [place]})
      (Ends quiet) := by
  rw [← insert_passed]
  refine meets_at fun w held => ?_
  refine meets_bind (meets_prepare held (textOf place)) fun made => ?_
  refine meets_modify _ fun v ⟨number, stmt, notClosed, works, results, same⟩ => ?_
  subst number same
  have whole := held_hold (held_answered held) (next_fresh split once) (next_wanted split)
    notClosed works results
  rcases bracket with rfl | rfl
  · exact whole
  · exact whole

/-- Preparing a list of places one after the other. -/
theorem meets_prepare_each {Item : Type} (placeOf : Item → Place) (body : Item → Lua Unit)
    (items : List Item) (passed rest : List Place)
    (split : wanted = passed ++ items.map placeOf ++ rest) (once : wanted.Nodup)
    (turn : ∀ item ∈ items, ∀ kept, placeOf item ∉ kept → placeOf item ∈ wanted →
      Meets (Held quiet cfg opt wanted kept) (body item)
        (fun _ => Held quiet cfg opt wanted (insert (placeOf item) kept))
        (Ends quiet)) :
    Meets (Held quiet cfg opt wanted {place | place ∈ passed}) (items.forM body)
      (fun _ => Held quiet cfg opt wanted {place | place ∈ passed ++ items.map placeOf})
      (Ends quiet) := by
  induction items generalizing passed with
  | nil =>
      rw [List.map_nil, List.append_nil]
      exact meets_pure () fun _ held => held
  | cons item items ih =>
      have next : wanted = passed ++ [placeOf item] ++ items.map placeOf ++ rest := by
        simp [split]
      have now : wanted = passed ++ placeOf item :: (items.map placeOf ++ rest) := by
        simp [split]
      have first := turn item List.mem_cons_self {place | place ∈ passed} (next_fresh now once)
        (next_wanted now)
      rw [insert_passed] at first
      have later := ih (passed ++ [placeOf item]) next
        fun other member => turn other (List.mem_cons_of_mem _ member)
      rw [List.append_assoc, List.singleton_append] at later
      exact meets_bind first fun _ => later

theorem meets_prepare_for_each_table (key : Key) (passed rest : List Place)
    (split : wanted = passed ++ tablePlaces opt key ++ rest) (once : wanted.Nodup) :
    Meets (Held quiet cfg opt wanted {place | place ∈ passed}) (prepareForEachTable cfg key)
      (fun _ => Held quiet cfg opt wanted {place | place ∈ passed ++ tablePlaces opt key})
      (Ends quiet) := by
  refine meets_read fun w held => ?_
  rw [held.options]
  exact meets_from (meets_prepare_each (fun t => .table t key) _ (tableNumbers opt) passed rest
    split once fun t _ kept fresh inside => meets_prepare_for_table t key fresh inside) held

theorem meets_prepare_keys (keys : List Key) (passed rest : List Place)
    (split : wanted = passed ++ keyPlaces opt keys ++ rest) (once : wanted.Nodup) :
    Meets (Held quiet cfg opt wanted {place | place ∈ passed}) (prepareKeys cfg keys)
      (fun _ => Held quiet cfg opt wanted {place | place ∈ passed ++ keyPlaces opt keys})
      (Ends quiet) := by
  induction keys generalizing passed with
  | nil =>
      rw [keyPlaces, List.flatMap_nil, List.append_nil]
      exact meets_pure () fun _ held => held
  | cons key keys ih =>
      have places : keyPlaces opt (key :: keys) = tablePlaces opt key ++ keyPlaces opt keys :=
        List.flatMap_cons
      rw [places] at split ⊢
      rw [← List.append_assoc] at split ⊢
      exact meets_bind (meets_prepare_for_each_table key passed (keyPlaces opt keys ++ rest)
        (by rw [split, List.append_assoc]) once) fun _ => ih _ split

theorem meets_prepare_transaction (passed rest : List Place)
    (split : wanted = passed ++ transactionPlaces opt ++ rest) (once : wanted.Nodup) :
    Meets (Held quiet cfg opt wanted {place | place ∈ passed}) (prepareTransaction cfg)
      (fun _ => Held quiet cfg opt wanted {place | place ∈ passed ++ transactionPlaces opt})
      (Ends quiet) := by
  refine meets_read fun w held => ?_
  rw [held.options]
  unfold transactionPlaces at split ⊢
  cases skip : opt.skipTrx with
  | true =>
      simp only [↓reduceIte, List.append_nil]
      exact meets_from (meets_pure () fun _ held => held) held
  | false =>
      simp only [skip, Bool.false_eq_true, ↓reduceIte] at split ⊢
      have first : wanted = passed ++ .begin_ :: (.commit :: rest) := by simp [split]
      have second : wanted = passed ++ [.begin_] ++ .commit :: rest := by simp [split]
      have places : passed ++ [.begin_, .commit] = passed ++ [.begin_] ++ [.commit] := by simp
      rw [places]
      refine meets_from (meets_bind
        (meets_prepare_bracket .begin_ (Or.inl rfl) passed _ first once) fun _ => ?_) held
      exact meets_prepare_bracket .commit (Or.inr rfl) (passed ++ [.begin_]) rest second once

theorem meets_prepare_ranges (passed rest : List Place)
    (split : wanted = passed ++ rangePlaces opt ++ rest) (once : wanted.Nodup) :
    Meets (Held quiet cfg opt wanted {place | place ∈ passed}) (prepareRanges cfg)
      (fun _ => Held quiet cfg opt wanted {place | place ∈ passed ++ rangePlaces opt})
      (Ends quiet) := by
  refine meets_read fun w held => ?_
  rw [held.options]
  unfold rangePlaces at split ⊢
  cases ranges : opt.rangeSelects with
  | false =>
      simp only [Bool.false_eq_true, ↓reduceIte, List.append_nil]
      exact meets_from (meets_pure () fun _ held => held) held
  | true =>
      simp only [ranges, ↓reduceIte] at split ⊢
      exact meets_from (meets_prepare_keys rangeKeys passed rest split once) held

/-- No statement is open, and the options are those that `prepare_statements` settles on. -/
def Bare (quiet : Prop) (cfg : Setting) (opt : Options) (wanted : List Place) (w : World) : Prop :=
  Held quiet cfg opt wanted ∅ { w with opt := settled cfg.benchmark w.opt }

theorem settled_again (b : Benchmark) (opt : Options) :
    settled b (settled b opt) = settled b opt := by
  unfold settled
  split <;> rfl

theorem bare_of_held (held : Held quiet cfg (settled cfg.benchmark opt) wanted ∅ w) :
    Bare quiet cfg (settled cfg.benchmark opt) wanted w := by
  unfold Bare
  have same : settled cfg.benchmark w.opt = w.opt := by rw [held.options, settled_again]
  rwa [same]

theorem meets_prepare_statements (once : (preparedPlaces cfg.benchmark opt).Nodup) :
    Meets (Bare quiet cfg opt (preparedPlaces cfg.benchmark opt)) (prepareStatements cfg)
      (fun _ => Held quiet cfg opt (preparedPlaces cfg.benchmark opt)
        {place | place ∈ preparedPlaces cfg.benchmark opt}) (Ends quiet) := by
  have nothing : (∅ : Set Place) = {place | place ∈ ([] : List Place)} := by simp
  generalize wanted_ : preparedPlaces cfg.benchmark opt = wanted at once ⊢
  unfold Bare prepareStatements settled
  rw [nothing]
  cases b : cfg.benchmark <;> rw [b] at wanted_ <;> subst wanted_
  case oltpDelete => exact meets_prepare_keys [.deletes] [] [] (by simp [preparedPlaces]) once
  case oltpInsert => exact meets_pure () fun _ held => held
  case oltpPointSelect =>
    refine meets_modify_then _ fun w held => ?_
    exact meets_from (meets_prepare_keys [.pointSelects] [] [] (by simp [preparedPlaces]) once) held
  case oltpReadOnly =>
    refine meets_bind (meets_prepare_keys [.pointSelects] [] (transactionPlaces opt ++
      rangePlaces opt) (by simp [preparedPlaces]) once) fun _ => ?_
    refine meets_bind (meets_prepare_transaction (keyPlaces opt [.pointSelects])
      (rangePlaces opt) rfl once) fun _ => ?_
    exact meets_prepare_ranges _ [] (by simp [preparedPlaces]) once
  case oltpReadWrite =>
    refine meets_bind (meets_prepare_transaction [] (keyPlaces opt [.pointSelects] ++
      rangePlaces opt ++ keyPlaces opt writeKeys) (by simp [preparedPlaces]) once) fun _ => ?_
    refine meets_bind (meets_prepare_keys [.pointSelects] (transactionPlaces opt)
      (rangePlaces opt ++ keyPlaces opt writeKeys) (by simp [preparedPlaces]) once) fun _ => ?_
    refine meets_bind (meets_prepare_ranges (transactionPlaces opt ++ keyPlaces opt [.pointSelects])
      (keyPlaces opt writeKeys) rfl once) fun _ => ?_
    exact meets_prepare_keys writeKeys _ [] (by simp [preparedPlaces]) once
  case oltpUpdateIndex =>
    exact meets_prepare_keys [.indexUpdates] [] [] (by simp [preparedPlaces]) once
  case oltpUpdateNonIndex =>
    exact meets_prepare_keys [.nonIndexUpdates] [] [] (by simp [preparedPlaces]) once
  case oltpWriteOnly =>
    refine meets_bind (meets_prepare_transaction [] (keyPlaces opt writeKeys)
      (by simp [preparedPlaces]) once) fun _ => ?_
    exact meets_prepare_keys writeKeys _ [] (by simp [preparedPlaces]) once
end Preparing

/-! No place is listed twice. -/
section Listing
variable {opt : Options}

theorem numbers_once (opt : Options) : (tableNumbers opt).Nodup :=
  List.nodup_range.map fun _ _ same => Nat.succ.inj same

theorem mem_key_places {keys : List Key} {place : Place} :
    place ∈ keyPlaces opt keys ↔
      ∃ key ∈ keys, ∃ t ∈ tableNumbers opt, place = .table t key := by
  simp [keyPlaces, tablePlaces, eq_comm]

theorem key_places_once (keys : List Key) (once : keys.Nodup) : (keyPlaces opt keys).Nodup := by
  refine List.nodup_flatMap.mpr ⟨fun key _ => ?_, once.imp fun {first second} different => ?_⟩
  · exact (numbers_once opt).map fun _ _ same => (Place.table.inj same).1
  · intro place here there
    obtain ⟨_, _, rfl⟩ := List.mem_map.mp here
    obtain ⟨_, _, same⟩ := List.mem_map.mp there
    exact different (Place.table.inj same).2.symm

theorem transaction_places_once (opt : Options) : (transactionPlaces opt).Nodup := by
  unfold transactionPlaces
  split <;> decide

theorem range_places_once (opt : Options) : (rangePlaces opt).Nodup := by
  unfold rangePlaces
  split
  · exact key_places_once rangeKeys (by decide)
  · exact List.nodup_nil

theorem mem_transaction_places {place : Place} (member : place ∈ transactionPlaces opt) :
    place = .begin_ ∨ place = .commit := by
  unfold transactionPlaces at member
  split at member
  · cases member
  · simpa using member

theorem mem_range_places {place : Place} (member : place ∈ rangePlaces opt) :
    place ∈ keyPlaces opt rangeKeys := by
  unfold rangePlaces at member
  split at member
  · exact member
  · cases member

theorem transaction_apart_keys {keys : List Key} :
    ∀ p ∈ transactionPlaces opt, ∀ q ∈ keyPlaces opt keys, p ≠ q := by
  intro p bracket q member same
  obtain ⟨_, _, _, _, rfl⟩ := mem_key_places.mp member
  rcases mem_transaction_places bracket with rfl | rfl <;> cases same

theorem keys_apart {first second : List Key} (apart : ∀ key ∈ first, key ∉ second) :
    ∀ p ∈ keyPlaces opt first, ∀ q ∈ keyPlaces opt second, p ≠ q := by
  intro p here q there same
  obtain ⟨key, one, _, _, rfl⟩ := mem_key_places.mp here
  obtain ⟨_, two, _, _, rfl⟩ := mem_key_places.mp there
  exact apart key one ((Place.table.inj same).2 ▸ two)

theorem prepared_once (b : Benchmark) (opt : Options) : (preparedPlaces b opt).Nodup := by
  have bracket := transaction_places_once opt
  have ranges := range_places_once opt
  have apart : ∀ keys, ∀ p ∈ transactionPlaces opt, ∀ q ∈ keyPlaces opt keys, p ≠ q :=
    fun _ => transaction_apart_keys
  cases b with
  | oltpDelete | oltpPointSelect | oltpUpdateIndex | oltpUpdateNonIndex =>
      exact key_places_once _ (List.nodup_singleton _)
  | oltpInsert => exact List.nodup_nil
  | oltpReadOnly =>
      refine List.nodup_append.mpr ⟨List.nodup_append.mpr ⟨key_places_once _ (by decide), bracket,
        fun p here q there => (apart _ q there p here).symm⟩, ranges, fun p here q there => ?_⟩
      have range := mem_range_places there
      rcases List.mem_append.mp here with point | outer
      · exact keys_apart (by decide) p point q range
      · exact apart _ p outer q range
  | oltpReadWrite =>
      refine List.nodup_append.mpr ⟨List.nodup_append.mpr ⟨List.nodup_append.mpr
        ⟨bracket, key_places_once _ (by decide), apart _⟩, ranges, fun p here q there => ?_⟩,
        key_places_once _ (by decide), fun p here q there => ?_⟩
      · have range := mem_range_places there
        rcases List.mem_append.mp here with outer | point
        · exact apart _ p outer q range
        · exact keys_apart (by decide) p point q range
      · rcases List.mem_append.mp here with before | range
        · rcases List.mem_append.mp before with outer | point
          · exact apart _ p outer q there
          · exact keys_apart (by decide) p point q there
        · exact keys_apart (by decide) p (mem_range_places range) q there
  | oltpWriteOnly =>
      exact List.nodup_append.mpr ⟨bracket, key_places_once _ (by decide), apart _⟩

theorem closing_once (cfg : Setting) (opt : Options) : (closingOrder cfg opt).Nodup := by
  refine List.nodup_append.mpr ⟨List.nodup_flatMap.mpr ⟨fun t _ => ?_,
    (numbers_once opt).imp fun {first second} different => ?_⟩, by decide, ?_⟩
  · exact cfg.order.once.map fun _ _ same => (Place.table.inj same).2
  · intro place here there
    obtain ⟨_, _, rfl⟩ := List.mem_map.mp here
    obtain ⟨_, _, same⟩ := List.mem_map.mp there
    exact different (Place.table.inj same).1.symm
  · intro p here q there same
    obtain ⟨t, _, inside⟩ := List.mem_flatMap.mp here
    obtain ⟨_, _, rfl⟩ := List.mem_map.mp inside
    subst same
    simp at there

theorem listed_iff (cfg : Setting) {place : Place} :
    place ∈ closingOrder cfg opt ↔
      (∃ key, ∃ t ∈ tableNumbers opt, place = .table t key) ∨
        place = .begin_ ∨ place = .commit := by
  simp only [closingOrder, List.mem_append, List.mem_flatMap, List.mem_map, List.mem_cons,
    List.not_mem_nil, or_false, cfg.order.every, true_and]
  refine or_congr_left ⟨fun ⟨t, inside, key, same⟩ => ⟨key, t, inside, same.symm⟩,
    fun ⟨key, t, inside, same⟩ => ⟨t, inside, key, same.symm⟩⟩

theorem prepared_listed (cfg : Setting) (b : Benchmark) :
    ∀ place ∈ preparedPlaces b opt, place ∈ closingOrder cfg opt := by
  have keys : ∀ keys, ∀ place ∈ keyPlaces opt keys, place ∈ closingOrder cfg opt := by
    intro keys place member
    obtain ⟨key, _, t, inside, rfl⟩ := mem_key_places.mp member
    exact (listed_iff cfg).mpr (Or.inl ⟨key, t, inside, rfl⟩)
  have bracket : ∀ place ∈ transactionPlaces opt, place ∈ closingOrder cfg opt :=
    fun place member => (listed_iff cfg).mpr (Or.inr (mem_transaction_places member))
  have ranges : ∀ place ∈ rangePlaces opt, place ∈ closingOrder cfg opt :=
    fun place member => keys _ place (mem_range_places member)
  intro place member
  cases b with
  | oltpDelete | oltpPointSelect | oltpUpdateIndex | oltpUpdateNonIndex =>
      exact keys _ place member
  | oltpInsert => cases member
  | oltpReadOnly =>
      rcases List.mem_append.mp member with before | range
      · rcases List.mem_append.mp before with point | outer
        · exact keys _ place point
        · exact bracket place outer
      · exact ranges place range
  | oltpReadWrite =>
      rcases List.mem_append.mp member with before | write
      · rcases List.mem_append.mp before with first | range
        · rcases List.mem_append.mp first with outer | point
          · exact bracket place outer
          · exact keys _ place point
        · exact ranges place range
      · exact keys _ place write
  | oltpWriteOnly =>
      rcases List.mem_append.mp member with outer | write
      · exact bracket place outer
      · exact keys _ place write
end Listing

/-! Preparing again. -/
section Again
variable {quiet : Prop} {cfg : Setting} {opt : Options} {w : World}

/-- Every wanted place has its open statement, and there are no others. -/
def Ready (quiet : Prop) (cfg : Setting) (opt : Options) (w : World) : Prop :=
  Held quiet cfg (settled cfg.benchmark opt) (preparedPlaces cfg.benchmark opt)
    {place | place ∈ preparedPlaces cfg.benchmark opt} w

theorem settled_places (b : Benchmark) (opt : Options) :
    preparedPlaces b (settled b opt) = preparedPlaces b opt := by
  unfold settled
  split
  next same =>
    subst same
    rfl
  · rfl

theorem meets_close_all {thrown : Thrown → World → Prop} :
    Meets (Ready quiet cfg opt) (closeStatements cfg)
      (fun _ => Held quiet cfg (settled cfg.benchmark opt) (preparedPlaces cfg.benchmark opt) ∅)
      thrown := by
  refine meets_close_statements ?_ (closing_once cfg _)
  rw [← settled_places]
  exact prepared_listed cfg cfg.benchmark

theorem meets_prepare_all :
    Meets (Bare quiet cfg (settled cfg.benchmark opt) (preparedPlaces cfg.benchmark opt))
      (prepareStatements cfg) (fun _ => Ready quiet cfg opt) (Ends quiet) := by
  rw [← settled_places]
  refine meets_weaken (meets_prepare_statements (prepared_once _ _)) (fun _ bare => bare) ?_
    fun _ _ known => known
  intro _ w held
  unfold Ready
  rwa [settled_places] at held

theorem meets_next_reconnect {wanted : List Place} :
    Meets (Held quiet cfg opt wanted ∅) nextReconnect
      (fun succeeds w => Held quiet cfg opt wanted ∅ w ∧ (quiet → succeeds = true))
      (Ends quiet) := by
  refine meets_modify_get _ fun w held => ⟨?_, fun calm => ?_⟩
  · refine held_same held ⟨rfl, rfl, rfl, rfl, rfl, rfl, rfl⟩ held.results held.owner
      ⟨held.admitted.severe, fun calm => ?_⟩
    have before := held.admitted.calm calm
    exact ⟨before.prepares, before.executes,
      fun succeeds member => before.reconnects succeeds (List.mem_of_mem_tail member)⟩
  · cases answers : w.answers.reconnects with
    | nil => rfl
    | cons first rest => exact (held.admitted.calm calm).reconnects first (by simp [answers])

/-- In a quiet run that reconnects the driver has made connections. -/
def Connects (quiet : Prop) (cfg : Setting) (opt : Options) : Prop :=
  quiet → cfg.args.dryRun = true → opt.reconnect ≤ 0

theorem meets_reconnect {wanted : List Place} (made : ¬ quiet ∨ cfg.args.dryRun = false) :
    Meets (Held quiet cfg opt wanted ∅) (reconnect cfg) (fun _ => Held quiet cfg opt wanted ∅)
      (Ends quiet) := by
  refine meets_bind meets_next_reconnect fun succeeds => meets_read fun w ⟨held, succeeding⟩ => ?_
  rw [if_neg held.results.open_]
  by_cases dry : cfg.args.dryRun = true
  · have loud : ¬ quiet := made.resolve_right (by simp [dry])
    rw [if_pos dry]
    exact meets_throw _ fun _ _ => ⟨.inr rfl, loud⟩
  rw [if_neg dry]
  cases succeeds with
  | false =>
      have loud : ¬ quiet := fun calm => nomatch succeeding calm
      exact meets_set_then _ (meets_throw _ fun _ _ => ⟨.inl rfl, loud⟩)
  | true =>
      obtain ⟨free, same, owner⟩ := freed_first_settles cfg.args w.con held.results
      have ready : { freedFirst cfg.args w.con with state := .ready } =
          freedFirst cfg.args w.con := by
        rw [← free.ready]
      rw [if_pos rfl, ready]
      refine meets_set _ fun _ _ => held_same held
        ⟨rfl, rfl, rfl, rfl, rfl, same.stmts, same.prepared⟩ (settled_invariant _ _ free) ?_
        held.admitted
      refine fun some_ => held.owner fun none_ => some_ ?_
      exact freed_statement held.results none_

theorem meets_before_restart (errno : Nat) :
    Meets (Ready quiet cfg opt) (beforeRestartEvent cfg errno) (fun _ => Ready quiet cfg opt)
      (Ends quiet) := by
  unfold beforeRestartEvent
  split
  · refine meets_bind meets_close_all fun _ => ?_
    exact meets_weaken meets_prepare_all (fun _ held => bare_of_held held)
      (fun _ _ ready => ready) fun _ _ known => known
  · exact meets_pure () fun _ ready => ready

theorem settled_reconnect (b : Benchmark) (opt : Options) :
    (settled b opt).reconnect = opt.reconnect := by
  unfold settled
  split <;> rfl

/-- Every error in `check_reconnect` ends the thread. -/
theorem meets_check_reconnect (connects : Connects quiet cfg opt) :
    Meets (Ready quiet cfg opt) (checkReconnect cfg) (fun _ => Ready quiet cfg opt)
      (Ends quiet) := by
  refine meets_read fun w ready => ?_
  split
  next wanted =>
    rw [ready.options, settled_reconnect] at wanted
    have made : ¬ quiet ∨ cfg.args.dryRun = false := by
      by_cases calm : quiet
      · refine Or.inr (Bool.eq_false_iff.mpr fun dry => ?_)
        exact absurd wanted (Int.not_lt.mpr (connects calm dry))
      · exact Or.inl calm
    refine meets_set_then _ ?_
    have counted : Ready quiet cfg opt { w with transactions := w.transactions + 1 } :=
      held_same ready ⟨rfl, rfl, rfl, rfl, rfl, rfl, rfl⟩ ready.results ready.owner ready.admitted
    refine meets_from ?_ counted
    split
    · refine meets_bind meets_close_all fun _ => meets_bind (meets_reconnect made) fun _ => ?_
      exact meets_weaken meets_prepare_all (fun _ held => bare_of_held held)
        (fun _ _ ready => ready) fun _ _ known => known
    · exact meets_pure () fun _ ready => ready
  next => exact meets_from (meets_pure () fun _ ready => ready) ready
end Again
end PteSysbench.OltpStatements
