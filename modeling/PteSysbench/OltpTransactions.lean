import PteSysbench.OltpStatements

/-!
What an event of the OLTP benchmarks sends. A transaction is planned from the options and
the random draws alone; the scripts send it through prepared statements and their
parameters, which reconnects and restarts of the event replace.
-/

namespace PteSysbench.OltpTransactions

open ActionSystem DbDriver ResultSets SbRand ThrowingScripts OltpCommon OltpStatements
open EmulatedStatements (Param)

/-! Transactions. -/
section Plans

/-- Requests planned from draws, and the draws left over. -/
abbrev Plan := Draws → List Request × Draws

def nothing : Plan := fun draws => ([], draws)

def andThen (first second : Plan) : Plan := fun draws =>
  ((first draws).1 ++ (second (first draws).2).1, (second (first draws).2).2)

def repeated (turn : Plan) : Nat → Plan
  | 0 => nothing
  | n + 1 => andThen turn (repeated turn n)

def number (value : Int) : Value := .int (Int64.ofInt value)

/-- A request on the rows of a table. -/
def rowRequest (t : Nat) (key : Key) (values : List Value) : Request :=
  { text := textOf (.table t key), values := values }

def byId (key : Key) (t : Nat) : Plan := fun draws =>
  ([rowRequest t key [number draws.id.toNat]], draws.dropId)

def byRange (opt : Options) (key : Key) (t : Nat) : Plan := fun draws =>
  let id := draws.id.toNat
  ([rowRequest t key [number id, number (id + opt.rangeSize - 1)]], draws.dropId)

def nonIndexUpdate (t : Nat) : Plan := fun draws =>
  let rest := draws.dropDigit
  ([rowRequest t .nonIndexUpdates [.text (fill draws.digit cValueTemplate), number rest.id.toNat]],
    rest.dropId)

/-- A row deleted and inserted anew under its id. -/
def deleteInsert (t : Nat) : Plan := fun draws =>
  let id := number draws.id.toNat
  let rest := draws.dropId
  let last := rest.dropId
  ([rowRequest t .deletes [id],
    rowRequest t .inserts [id, number rest.id.toNat, .text (fill last.digit cValueTemplate),
      .text (fill last.dropDigit.digit padValueTemplate)]], last.dropDigit.dropDigit)

/-- So many turns on one table drawn at random. -/
def onTable (opt : Options) (count : Int) (turn : Nat → Plan) : Plan := fun draws =>
  repeated (turn (sbRandUniformRounded draws.word 1 (uint32 opt.tables))) count.toNat draws.dropWord

def ranges (opt : Options) : Plan :=
  if opt.rangeSelects then
    rangeKeys.foldr (fun key rest =>
      andThen (onTable opt (rangeCount key opt) (byRange opt key)) rest)
      nothing
  else nothing

def writes (opt : Options) : Plan :=
  andThen (onTable opt opt.indexUpdates (byId .indexUpdates))
    (andThen (onTable opt opt.nonIndexUpdates nonIndexUpdate)
      (onTable opt opt.deleteInserts deleteInsert))

def bracket (opt : Options) (place : Place) : Plan := fun draws =>
  (if opt.skipTrx then [] else [{ text := textOf place, values := [] }], draws)

def bracketed (opt : Options) (plan : Plan) : Plan :=
  andThen (bracket opt .begin_) (andThen plan (bracket opt .commit))

/-- A row inserted by a query without parameters. -/
def insertRow (cfg : Setting) (opt : Options) : Plan := fun draws =>
  let t := sbRandUniformRounded draws.word 1 (uint32 opt.tables)
  let rest := draws.dropWord.dropId
  let last := rest.dropDigit.dropDigit
  let text := fun id => insertText t id draws.id (fill rest.digit cValueTemplate)
    (fill rest.dropDigit.digit padValueTemplate)
  if opt.autoInc then
    ([{ text := text (if cfg.pgsql then none else some 0), values := [] }], last)
  else
    ([{ text := text (some (last.unique.toNat - 2147483648)), values := [] }], last.dropUnique)

/-- The transaction of each benchmark. -/
def transaction (cfg : Setting) (opt : Options) : Plan :=
  match cfg.benchmark with
  | .oltpDelete => onTable opt 1 (byId .deletes)
  | .oltpInsert => insertRow cfg opt
  | .oltpPointSelect => onTable opt opt.pointSelects (byId .pointSelects)
  | .oltpReadOnly =>
      bracketed opt (andThen (onTable opt opt.pointSelects (byId .pointSelects)) (ranges opt))
  | .oltpReadWrite =>
      bracketed opt (andThen (onTable opt opt.pointSelects (byId .pointSelects))
        (andThen (ranges opt) (writes opt)))
  | .oltpUpdateIndex => onTable opt opt.indexUpdates (byId .indexUpdates)
  | .oltpUpdateNonIndex => onTable opt opt.nonIndexUpdates nonIndexUpdate
  | .oltpWriteOnly => bracketed opt (writes opt)
end Plans

/-! What the parameters of a place send. -/
section Sent

/-- What an execution at a place would send for its parameters. -/
def valuesAt (w : World) (place : Place) : List Value :=
  match w.stmt place with
  | some id => (w.buffers id).map sentOf
  | none => []

theorem values_of {w : World} {place : Place} {id : Nat} (here : w.stmt place = some id) :
    valuesAt w place = (w.buffers id).map sentOf := by
  simp only [valuesAt, here]

theorem modify_sent {types : List BindType} {params : List Param}
    (fits : List.Forall₂ Fits types params) {i : Nat} {type : BindType}
    (typed : types[i]? = some type) (update : Param → Param) (value : Value)
    (sends : ∀ param, Fits type param → sentOf (update param) = value) :
    (params.modify i update).map sentOf = (params.map sentOf).set i value := by
  induction fits generalizing i with
  | nil => cases typed
  | cons first rest ih =>
      cases i with
      | zero =>
          cases typed
          simp [sends _ first]
      | succ i => simpa using ih typed

theorem set_number_fits (value : Int) (type : BindType) (param : Param) (fits : Fits type param) :
    Fits type (param.set (.number (Int64.ofInt value) 0)) := by
  cases type <;> cases param <;> simp_all [Fits, Param.set, EmulatedStatements.CharParam.set]

theorem set_number_sends (value : Int) (param : Param) (fits : Fits .int param) :
    sentOf (param.set (.number (Int64.ofInt value) 0)) = number value := by
  cases param with
  | bigint old isNull => rfl
  | double bits isNull | char param | varchar param => cases fits

theorem set_rand_str_fits (digits : Nat → Fin 11) (template : List UInt8) (type : BindType)
    (param : Param) (fits : Fits type param) :
    Fits type (param.setRandStr digits (fun _ => 0) template) := by
  cases type <;> cases param <;>
    simp_all [Fits, Param.setRandStr, EmulatedStatements.CharParam.setRandStr,
      EmulatedStatements.overlay_length]

theorem fill_length (digits : Nat → Fin 11) (template : List UInt8) (visible : 0 ∉ template) :
    (fill digits template).length = template.length := by
  have whole : untilTerminator template = template := by
    refine List.takeWhile_eq_self_iff.mpr fun c member => ?_
    have different : c ≠ 0 := fun zero => visible (zero ▸ member)
    simp [different]
  simp [fill, EmulatedStatements.sbRandStr, whole]

/-- A template that fits into the buffer is sent whole. -/
theorem set_rand_str_sends (digits : Nat → Fin 11) (template : List UInt8) (maxLen : Nat)
    (visible : 0 ∉ template) (room : template.length ≤ maxLen) (param : Param)
    (fits : Fits (.char maxLen) param) :
    sentOf (param.setRandStr digits (fun _ => 0) template) = .text (fill digits template) := by
  cases param with
  | bigint old isNull | double bits isNull | char param => cases fits
  | varchar param =>
      have size : param.buffer.length = maxLen := fits
      have filled := fill_length digits template visible
      have len : param.len template.length = template.length := by
        unfold EmulatedStatements.CharParam.len
        rw [if_neg (by omega)]
      simp only [Param.setRandStr, EmulatedStatements.CharParam.setRandStr, sentOf, len,
        Bool.false_eq_true, ↓reduceIte, EmulatedStatements.overlay]
      show Value.text (List.take _ (List.take _ (fill digits template) ++ _)) = _
      rw [List.take_of_length_le (by omega : (fill digits template).length ≤ param.buffer.length),
        ← filled, List.take_left]

theorem digit_groups_visible : 0 ∉ cValueTemplate ∧ 0 ∉ padValueTemplate := by decide
end Sent

/-! Scripts that send a plan. -/
section Sending
variable {quiet : Prop} {cfg : Setting} {opt : Options}

/-- Ready, with these requests sent and these draws to come. -/
structure At (quiet : Prop) (cfg : Setting) (opt : Options) (sent : List Request) (draws : Draws)
    (w : World) : Prop where
  ready : Ready quiet cfg opt w
  sent : w.sent = sent
  draws : w.draws = draws

/-- What an error leaves: still ready, with a part of the plan sent, in a run with failures. -/
structure Broken (quiet : Prop) (cfg : Setting) (opt : Options) (before whole : List Request)
    (thrown : Thrown) (w : World) : Prop where
  loud : ¬ quiet
  defined : thrown ≠ .dangling
  ready : Ready quiet cfg opt w
  sent : ∃ done, done <+: whole ∧ w.sent = before ++ done

/-- A script sends what is planned, or throws with a part of it sent. -/
def Sends (quiet : Prop) (cfg : Setting) (opt : Options) (script : Lua Unit) (plan : Plan) : Prop :=
  ∀ sent draws, Meets (At quiet cfg opt sent draws) script
    (fun _ => At quiet cfg opt (sent ++ (plan draws).1) (plan draws).2)
    (Broken quiet cfg opt sent (plan draws).1)

theorem broken_longer {before whole more : List Request} {thrown : Thrown} {w : World}
    (broken : Broken quiet cfg opt before whole thrown w) :
    Broken quiet cfg opt before (whole ++ more) thrown w := by
  obtain ⟨done, part, sent⟩ := broken.sent
  exact ⟨broken.loud, broken.defined, broken.ready, done, part.trans (List.prefix_append _ _), sent⟩

theorem broken_later {before first rest : List Request} {thrown : Thrown} {w : World}
    (broken : Broken quiet cfg opt (before ++ first) rest thrown w) :
    Broken quiet cfg opt before (first ++ rest) thrown w := by
  obtain ⟨done, part, sent⟩ := broken.sent
  refine ⟨broken.loud, broken.defined, broken.ready, first ++ done,
    (List.prefix_append_right_inj first).mpr part, ?_⟩
  rw [sent, List.append_assoc]

theorem broken_unsent {sent whole : List Request} {draws : Draws} {w : World} (loud : ¬ quiet)
    (at_ : At quiet cfg opt sent draws w) : Broken quiet cfg opt sent whole .other w :=
  ⟨loud, by simp, at_.ready, [], List.nil_prefix, by rw [at_.sent, List.append_nil]⟩

theorem sends_nothing : Sends quiet cfg opt (pure ()) nothing := by
  intro sent draws
  refine meets_pure () fun w at_ => ?_
  show At quiet cfg opt (sent ++ []) draws w
  rwa [List.append_nil]

theorem sends_then {first second : Lua Unit} {one two : Plan}
    (sendsOne : Sends quiet cfg opt first one)
    (sendsTwo : Sends quiet cfg opt second two) :
    Sends quiet cfg opt (first >>= fun _ => second) (andThen one two) := by
  intro sent draws
  refine meets_bind (meets_weaken (sendsOne sent draws) (fun _ at_ => at_) (fun _ _ at_ => at_)
    fun _ _ broken => broken_longer broken) fun _ => ?_
  have rest := sendsTwo (sent ++ (one draws).1) (one draws).2
  rw [List.append_assoc] at rest
  exact meets_weaken rest (fun _ at_ => at_) (fun _ _ at_ => at_) fun _ _ broken =>
    broken_later broken

theorem sends_times {turn : Lua Unit} {plan : Plan} (sends : Sends quiet cfg opt turn plan)
    (n : Nat) :
    Sends quiet cfg opt (times n turn) (repeated plan n) := by
  induction n with
  | zero => exact sends_nothing
  | succ n ih => exact sends_then sends ih

theorem sends_if {script : Lua Unit} {plan : Plan} (read : Options → Bool)
    (sends : read (settled cfg.benchmark opt) = true → Sends quiet cfg opt script plan) :
    Sends quiet cfg opt (do
        let w ← get
        if read w.opt then script else pure ())
      (if read (settled cfg.benchmark opt) then plan else nothing) := by
  intro sent draws
  refine meets_read fun w at_ => meets_from ?_ at_
  rw [at_.ready.options]
  cases on : read (settled cfg.benchmark opt) with
  | true => exact sends on sent draws
  | false => exact sends_nothing sent draws

/-- In a quiet run the place has a statement. -/
def Placed (quiet : Prop) (cfg : Setting) (opt : Options) (place : Place) : Prop :=
  quiet → place ∈ preparedPlaces cfg.benchmark opt

/-- In a quiet run the number is that of a table. -/
def Numbered (quiet : Prop) (opt : Options) (t : Nat) : Prop := quiet → t ∈ tableNumbers opt
end Sending

/-! The steps of a turn. -/
section Turns
variable {quiet : Prop} {cfg : Setting} {opt : Options} {sent whole : List Request} {draws : Draws}

theorem at_draws {rest : Draws} {w : World} (at_ : At quiet cfg opt sent draws w) :
    At quiet cfg opt sent rest { w with draws := rest } :=
  ⟨held_same at_.ready ⟨rfl, rfl, rfl, rfl, rfl, rfl, rfl⟩ at_.ready.results at_.ready.owner
    at_.ready.admitted, at_.sent, rfl⟩

theorem at_drop (drop : Draws → Draws) {w : World} (at_ : At quiet cfg opt sent draws w) :
    At quiet cfg opt sent (drop draws) { w with draws := drop w.draws } :=
  at_.draws ▸ at_draws at_

/-- A draw of any kind. -/
theorem meets_draw {Result : Type} {thrown : Thrown → World → Prop} (take : Draws → Result)
    (drop : Draws → Draws) :
    Meets (At quiet cfg opt sent draws)
      (modifyGet fun w => (take w.draws, { w with draws := drop w.draws }))
      (fun result w => result = take draws ∧ At quiet cfg opt sent (drop draws) w) thrown :=
  meets_modify_get _ fun _ at_ => ⟨congrArg take at_.draws, at_drop drop at_⟩

/-- At, with these values sent by an execution at each place. -/
def Showing (quiet : Prop) (cfg : Setting) (opt : Options) (sent : List Request) (draws : Draws)
    (values : Place → List Value) (w : World) : Prop :=
  At quiet cfg opt sent draws w ∧ valuesAt w = values

theorem meets_draw_showing {Result : Type} {thrown : Thrown → World → Prop} (take : Draws → Result)
    (drop : Draws → Draws) (values : Place → List Value) :
    Meets (Showing quiet cfg opt sent draws values)
      (modifyGet fun w => (take w.draws, { w with draws := drop w.draws }))
      (fun result w => result = take draws ∧ Showing quiet cfg opt sent (drop draws) values w)
      thrown :=
  meets_modify_get _ fun _ showing =>
    ⟨congrArg take showing.1.draws, at_drop drop showing.1, showing.2⟩

theorem values_length {t : Nat} {key : Key} {values : Place → List Value} {w : World}
    (showing : Showing quiet cfg opt sent draws values w) {id : Nat}
    (here : w.stmt (.table t key) = some id) :
    (values (.table t key)).length = (stmtDefs key).types.length := by
  have ready := showing.1.ready
  have serves := (held_open ready (held_within ready here) here).2.1
  rw [← showing.2, values_of here, List.length_map]
  exact serves.2.2.length_eq.symm

/-- An updated parameter changes the values of its place only. -/
theorem values_update {w : World} (ready : Ready quiet cfg opt w) {place : Place} {id : Nat}
    (here : w.stmt place = some id) (params : List Param) :
    valuesAt { w with buffers := Function.update w.buffers id params } =
      Function.update (valuesAt w) place (params.map sentOf) := by
  funext other
  by_cases same : other = place
  · subst same
    simp [valuesAt, here]
  · rw [Function.update_of_ne same]
    unfold valuesAt
    cases there : w.stmt other with
    | none => rfl
    | some number =>
        have apart : number ≠ id := by
          rintro rfl
          exact same (ready.apart other (held_within ready there) place (held_within ready here)
            (there.trans here.symm))
        simp [apart]

/-- A place without a statement is none of a quiet run. -/
theorem unplaced {place : Place} (placed : Placed quiet cfg opt place) {w : World}
    (ready : Ready quiet cfg opt w) (none_ : w.stmt place = none) : ¬ quiet := by
  intro calm
  obtain ⟨id, here, _⟩ := ready.made place (placed calm)
  cases none_.symm.trans here

theorem unbound {t : Nat} {key : Key} (placed : Placed quiet cfg opt (.table t key)) {w : World}
    (ready : Ready quiet cfg opt w) (none_ : w.param (.table t key) = none) : ¬ quiet := by
  intro calm
  obtain ⟨id, _, _, serves⟩ := ready.made _ (placed calm)
  cases none_.symm.trans serves.2.1

/-- An update of one parameter changes the value it sends. -/
theorem meets_set_param (t : Nat) (key : Key) (placed : Placed quiet cfg opt (.table t key))
    (i : Nat) (update : Param → Param) (value : Value)
    {type : BindType} (typed : (stmtDefs key).types[i]? = some type)
    (fits : ∀ type param, Fits type param → Fits type (update param))
    (sends : ∀ param, Fits type param → sentOf (update param) = value)
    (values : Place → List Value) :
    Meets (Showing quiet cfg opt sent draws values) (setParam (.table t key) i update)
      (fun _ w => Showing quiet cfg opt sent draws
          (Function.update values (.table t key) ((values (.table t key)).set i value)) w ∧
        (values (.table t key)).length = (stmtDefs key).types.length)
      (Broken quiet cfg opt sent whole) := by
  refine meets_read fun w showing => ?_
  cases bound : w.param (.table t key) with
  | none =>
      have loud := unbound placed showing.1.ready bound
      exact meets_throw _ fun _ same => same ▸ broken_unsent loud showing.1
  | some id =>
      have ready := showing.1.ready
      obtain ⟨here, live⟩ := held_param ready bound ⟨t, key, rfl⟩
      have serves := (held_open ready (held_within ready here) here).2.1
      have inside : i < (w.buffers id).length := by
        rw [← serves.2.2.length_eq]
        exact (List.getElem?_eq_some_iff.mp typed).1
      simp only [if_pos inside]
      refine meets_set _ fun _ _ => ⟨⟨⟨held_update ready bound i update fits, showing.1.sent,
        showing.1.draws⟩, ?_⟩, values_length showing here⟩
      rw [← showing.2, values_update ready here, modify_sent serves.2.2 typed update value sends,
        ← values_of here]

theorem meets_set_number (t : Nat) (key : Key) (placed : Placed quiet cfg opt (.table t key))
    (i : Nat) (value : Int) (typed : (stmtDefs key).types[i]? = some .int)
    (values : Place → List Value) :
    Meets (Showing quiet cfg opt sent draws values) (setNumber (.table t key) i value)
      (fun _ w => Showing quiet cfg opt sent draws
          (Function.update values (.table t key) ((values (.table t key)).set i (number value))) w ∧
        (values (.table t key)).length = (stmtDefs key).types.length)
      (Broken quiet cfg opt sent whole) :=
  meets_set_param t key placed i _ _ typed (set_number_fits value) (set_number_sends value) values

theorem meets_set_rand_str (t : Nat) (key : Key) (placed : Placed quiet cfg opt (.table t key))
    (i : Nat) (template : List UInt8) (maxLen : Nat)
    (typed : (stmtDefs key).types[i]? = some (.char maxLen)) (visible : 0 ∉ template)
    (room : template.length ≤ maxLen) (values : Place → List Value) :
    Meets (Showing quiet cfg opt sent draws values) (setRandStr (.table t key) i template)
      (fun _ w => Showing quiet cfg opt sent draws.dropDigit
          (Function.update values (.table t key)
            ((values (.table t key)).set i (.text (fill draws.digit template)))) w ∧
        (values (.table t key)).length = (stmtDefs key).types.length)
      (Broken quiet cfg opt sent whole) := by
  exact meets_bind_known (meets_draw_showing Draws.digit Draws.dropDigit values)
    (meets_set_param t key placed i _ _ typed (set_rand_str_fits _ template)
      (set_rand_str_sends _ template maxLen visible room) values)

/-- The error of a call is thrown, or there is none. -/
theorem meets_check_error {known : World → Prop} {w : World}
    (kept : known w → At quiet cfg opt (sent ++ whole) draws w) (start : known w)
    (fine : quiet → w.con.error = .none) :
    Meets (fun v => v = w) (checkError cfg) (fun _ => known) (Broken quiet cfg opt sent whole) := by
  refine meets_read fun v same => ?_
  subst v
  split
  · exact meets_ran rfl start
  rename_i wrong
  have broken : ∀ thrown ≠ Thrown.dangling, ∀ v, v = w →
      Broken quiet cfg opt sent whole thrown v := by
    rintro thrown defined _ rfl
    exact ⟨fun calm => wrong (fine calm), defined, (kept start).ready, whole, List.prefix_rfl,
      (kept start).sent⟩
  split
  · exact meets_throw _ (broken .other (by simp))
  split
  · exact meets_throw _ (broken _ (by simp))
  · exact meets_throw _ (broken .other (by simp))

/-- An answer to a command that reports no failure. -/
def Fine (answer : Bool × Reply × SqlError) : Prop :=
  answer.1 = true ∧ ∀ ignorable reconnected, answer.2.1 ≠ .failed ignorable reconnected

theorem admitted_execute {answers : Answers} (admitted : Admitted quiet cfg answers) :
    Admitted quiet cfg { answers with executes := answers.executes.tail } ∧
      (quiet → Fine (answers.executes.headD (true, .noRows true, ⟨0, false⟩))) := by
  refine ⟨⟨admitted.severe, fun calm => ?_⟩, fun calm => ?_⟩
  · have before := admitted.calm calm
    exact ⟨before.prepares,
      fun answer member => before.executes answer (List.mem_of_mem_tail member), before.reconnects⟩
  · cases left : answers.executes with
    | nil => exact ⟨rfl, nofun⟩
    | cons first rest => exact (admitted.calm calm).executes first (by simp [left])

theorem meets_next_execute {thrown : Thrown → World → Prop} (values : Place → List Value) :
    Meets (Showing quiet cfg opt sent draws values) nextExecute
      (fun answer w => Showing quiet cfg opt sent draws values w ∧ (quiet → Fine answer))
      thrown := by
  refine meets_modify_get _ fun w showing => ?_
  obtain ⟨admitted, fine⟩ := admitted_execute showing.1.ready.admitted
  exact ⟨⟨⟨held_same showing.1.ready ⟨rfl, rfl, rfl, rfl, rfl, rfl, rfl⟩ showing.1.ready.results
    showing.1.ready.owner admitted, showing.1.sent, showing.1.draws⟩, showing.2⟩, fine⟩

theorem text_of_serves {w : World} {id : Nat} {place : Place} (serves : Serves w id place) :
    w.texts id = textOf place := by
  cases place <;> exact serves.1

theorem meets_execute (place : Place) (placed : Placed quiet cfg opt place)
    {values : Place → List Value} {shown : List Value} (shows : values place = shown) :
    Meets (Showing quiet cfg opt sent draws values) (execute cfg place)
      (fun _ => Showing quiet cfg opt (sent ++ [{ text := textOf place, values := shown }]) draws
        values)
      (Broken quiet cfg opt sent [{ text := textOf place, values := shown }]) := by
  subst shows
  refine meets_bind (meets_next_execute values) fun (buffer, reply, error) => ?_
  refine meets_read fun w ⟨showing, fine⟩ => ?_
  cases here : w.stmt place with
  | none =>
      have loud := unplaced placed showing.1.ready here
      exact meets_throw _ fun _ same => same ▸ broken_unsent loud showing.1
  | some id =>
      have ready := showing.1.ready
      obtain ⟨_, serves, stmt, found⟩ := held_open ready (held_within ready here) here
      simp only [found, if_neg ready.results.open_]
      have request : Request.mk (w.texts id) ((w.buffers id).map sentOf) =
          { text := textOf place, values := values place } := by
        rw [text_of_serves serves, ← values_of here, showing.2]
      have made := open_statement_spec _ _ _ found
      have works : Works cfg.args stmt := ready.works id stmt made.1 made.2
      have none_ : quiet → (dbExecute cfg.args w.con id stmt buffer reply).error = .none := by
        intro calm
        obtain ⟨rfl, answered_⟩ := fine calm
        exact execute_calm w.con id works answered_
      rw [request, showing.1.sent]
      refine meets_set_then _ (meets_check_error (fun showing => showing.1) ?_ none_)
      exact ⟨⟨held_execute ready here found buffer reply error _, rfl, showing.1.draws⟩, showing.2⟩

/-- A turn may count on its parameters' values, whatever they are at its start. -/
theorem meets_turn {script : Lua Unit} {plan : Draws → List Request × Draws}
    (meets : ∀ values, Meets (Showing quiet cfg opt sent draws values) script
      (fun _ w => ∃ after, Showing quiet cfg opt (sent ++ (plan draws).1) (plan draws).2 after w)
      (Broken quiet cfg opt sent (plan draws).1)) :
    Meets (At quiet cfg opt sent draws) script
      (fun _ => At quiet cfg opt (sent ++ (plan draws).1) (plan draws).2)
      (Broken quiet cfg opt sent (plan draws).1) :=
  meets_named valuesAt fun values => meets_weaken (meets values) (fun _ showing => showing)
    (fun _ _ ⟨_, showing⟩ => showing.1) fun _ _ broken => broken

/-- The execution at the end of a turn. -/
theorem meets_last (place : Place) (placed : Placed quiet cfg opt place)
    {values : Place → List Value} {shown : List Value}
    (shows : values place = shown) :
    Meets (Showing quiet cfg opt sent draws values) (execute cfg place)
      (fun _ w => ∃ after, Showing quiet cfg opt
        (sent ++ [{ text := textOf place, values := shown }]) draws after w)
      (Broken quiet cfg opt sent [{ text := textOf place, values := shown }]) :=
  meets_weaken (meets_execute place placed shows) (fun _ showing => showing)
    (fun _ _ showing => ⟨values, showing⟩) fun _ _ broken => broken

theorem meets_pair (first second : Place) (placedOne : Placed quiet cfg opt first)
    (placedTwo : Placed quiet cfg opt second) {values : Place → List Value} {one two : List Value}
    (showsOne : values first = one) (showsTwo : values second = two) :
    Meets (Showing quiet cfg opt sent draws values)
      (execute cfg first >>= fun _ => execute cfg second)
      (fun _ w => ∃ after, Showing quiet cfg opt (sent ++ [{ text := textOf first, values := one },
        { text := textOf second, values := two }]) draws after w)
      (Broken quiet cfg opt sent [{ text := textOf first, values := one },
        { text := textOf second, values := two }]) := by
  refine meets_bind (meets_weaken (meets_execute first placedOne showsOne)
    (fun _ showing => showing) (fun _ _ showing => showing)
    fun _ _ broken => broken_longer broken) fun _ => ?_
  refine meets_weaken (meets_last second placedTwo showsTwo) (fun _ showing => showing) ?_
    fun _ _ broken => broken_later broken
  intro _ w showing
  rwa [List.append_assoc] at showing

theorem length_four (values : List Value) (size : values.length = 4) :
    ∃ a b c d, values = [a, b, c, d] := by
  match values, size with
  | [a, b, c, d], _ => exact ⟨a, b, c, d, rfl⟩

theorem sends_by_id (key : Key) (types : (stmtDefs key).types = [.int]) (t : Nat)
    (placed : Placed quiet cfg opt (.table t key)) :
    Sends quiet cfg opt (executeById cfg key t) (byId key t) := by
  refine fun sent draws => meets_turn fun values => ?_
  refine meets_bind_known (meets_draw_showing Draws.id Draws.dropId values) ?_
  refine meets_bind_fact (meets_set_number t key placed 0 _ (by rw [types]; rfl) values)
    fun size => ?_
  refine meets_last _ placed ?_
  rw [types] at size
  obtain ⟨old, one⟩ := List.length_eq_one_iff.mp size
  rw [Function.update_self, one]
  rfl

theorem sends_by_range (key : Key) (types : (stmtDefs key).types = [.int, .int]) (t : Nat)
    (placed : Placed quiet cfg opt (.table t key)) :
    Sends quiet cfg opt (rangeTurn cfg key t) (byRange (settled cfg.benchmark opt) key t) := by
  refine fun sent draws => meets_turn fun values => ?_
  refine meets_bind_known (meets_draw_showing Draws.id Draws.dropId values) ?_
  refine meets_read fun w showing => meets_from ?_ showing
  rw [showing.1.ready.options]
  refine meets_bind_fact (meets_set_number t key placed 0 _ (by rw [types]; rfl) values)
    fun size => ?_
  refine meets_bind_fact (meets_set_number t key placed 1 _ (by rw [types]; rfl) _) fun _ => ?_
  refine meets_last _ placed ?_
  rw [types] at size
  obtain ⟨first, second, two⟩ := List.length_eq_two.mp size
  rw [Function.update_self, Function.update_self, two]
  rfl

theorem sends_non_index (t : Nat) (placed : Placed quiet cfg opt (.table t .nonIndexUpdates)) :
    Sends quiet cfg opt (nonIndexTurn cfg t) (nonIndexUpdate t) := by
  refine fun sent draws => meets_turn fun values => ?_
  refine meets_bind_fact (meets_set_rand_str t .nonIndexUpdates placed 0 cValueTemplate 120 rfl
    digit_groups_visible.1 (by decide) values) fun size => ?_
  refine meets_bind_known (meets_draw_showing Draws.id Draws.dropId _) ?_
  refine meets_bind_fact (meets_set_number t .nonIndexUpdates placed 1 _ rfl _) fun _ => ?_
  refine meets_last _ placed ?_
  obtain ⟨first, second, two⟩ := List.length_eq_two.mp size
  rw [Function.update_self, Function.update_self, two]
  rfl

theorem sends_delete_insert (t : Nat) (deleted : Placed quiet cfg opt (.table t .deletes))
    (inserted : Placed quiet cfg opt (.table t .inserts)) :
    Sends quiet cfg opt (deleteInsertTurn cfg t) (deleteInsert t) := by
  refine fun sent draws => meets_turn fun values => ?_
  refine meets_bind_known (meets_draw_showing Draws.id Draws.dropId values) ?_
  refine meets_bind_known (meets_draw_showing Draws.id Draws.dropId values) ?_
  refine meets_bind_fact (meets_set_number t .deletes deleted 0 _ rfl _) fun sizeOne => ?_
  refine meets_bind_fact (meets_set_number t .inserts inserted 0 _ rfl _) fun size => ?_
  refine meets_bind_fact (meets_set_number t .inserts inserted 1 _ rfl _) fun _ => ?_
  refine meets_bind_fact (meets_set_rand_str t .inserts inserted 2 cValueTemplate 120 rfl
    digit_groups_visible.1 (by decide) _) fun _ => ?_
  refine meets_bind_fact (meets_set_rand_str t .inserts inserted 3 padValueTemplate 60 rfl
    digit_groups_visible.2 (by decide) _) fun _ => ?_
  have apart : Place.table t .inserts ≠ .table t .deletes := by simp
  obtain ⟨only, one⟩ := List.length_eq_one_iff.mp sizeOne
  rw [Function.update_of_ne apart] at size
  obtain ⟨first, second, third, fourth, all⟩ := length_four _ size
  refine meets_pair (.table t .deletes) (.table t .inserts) deleted inserted ?_ ?_
  · simp only [Function.update_of_ne apart.symm, Function.update_self, one]
    rfl
  · simp only [Function.update_of_ne apart, Function.update_self, all]
    rfl
end Turns

/-! The events. -/
section Events
variable {quiet : Prop} {cfg : Setting} {opt : Options}

theorem meets_table_num {thrown : Thrown → World → Prop} (sent : List Request) (draws : Draws) :
    Meets (At quiet cfg opt sent draws) getTableNum
      (fun t w =>
        t = sbRandUniformRounded draws.word 1 (uint32 (settled cfg.benchmark opt).tables) ∧
          At quiet cfg opt sent draws.dropWord w) thrown := by
  refine meets_bind_known (meets_draw Draws.word Draws.dropWord) (meets_read fun w at_ => ?_)
  rw [at_.ready.options]
  exact meets_from (meets_pure _ fun _ at_ => ⟨rfl, at_⟩) at_

/-- In a quiet run there is a table to be drawn, and a `uint32_t` holds their number. -/
def Tabled (quiet : Prop) (opt : Options) : Prop := quiet → 1 ≤ opt.tables ∧ opt.tables < 2 ^ 32

theorem settled_same (b : Benchmark) (opt : Options) :
    (settled b opt).tables = opt.tables ∧ (settled b opt).skipTrx = opt.skipTrx ∧
      (settled b opt).rangeSelects = opt.rangeSelects := by
  unfold settled
  split <;> exact ⟨rfl, rfl, rfl⟩

theorem drawn_numbered (tabled : Tabled quiet opt) (x : UInt64) :
    Numbered quiet opt (sbRandUniformRounded x 1 (uint32 (settled cfg.benchmark opt).tables)) := by
  intro calm
  obtain ⟨some_, narrow⟩ := tabled calm
  have whole : uint32 opt.tables = opt.tables.toNat := by
    rw [uint32, Int.emod_eq_of_lt (by omega) narrow]
  obtain ⟨low, high⟩ :=
    uniform_rounded_inside x 1 opt.tables.toNat (Nat.le_refl 1) (by omega) (by omega)
  rw [(settled_same cfg.benchmark opt).1, whole]
  refine List.mem_map.mpr
    ⟨sbRandUniformRounded x 1 opt.tables.toNat - 1, List.mem_range.mpr ?_, ?_⟩
  · omega
  · omega

theorem sends_on_table (tabled : Tabled quiet opt) (count : Options → Int) {turn : Nat → Lua Unit}
    {plan : Nat → Plan}
    (sends : ∀ t, Numbered quiet opt t → Sends quiet cfg opt (turn t) (plan t)) :
    Sends quiet cfg opt (onRandomTable count turn)
      (onTable (settled cfg.benchmark opt) (count (settled cfg.benchmark opt)) plan) := by
  intro sent draws
  refine meets_bind_known (meets_table_num sent draws) (meets_read fun w at_ => ?_)
  rw [at_.ready.options]
  exact meets_from (sends_times (sends _ (drawn_numbered tabled _)) _ sent draws.dropWord) at_

/-- In a quiet run the key has a statement for each table. -/
def Served (quiet : Prop) (cfg : Setting) (opt : Options) (key : Key) : Prop :=
  ∀ t, Numbered quiet opt t → Placed quiet cfg opt (.table t key)

theorem served_of {keys : List Key} {key : Key} (member : key ∈ keys)
    (inside : ∀ place ∈ keyPlaces opt keys, place ∈ preparedPlaces cfg.benchmark opt) :
    Served quiet cfg opt key :=
  fun t numbered calm => inside _ (mem_key_places.mpr ⟨key, member, t, numbered calm, rfl⟩)

theorem sends_each {Item : Type} {body : Item → Lua Unit} {plan : Item → Plan} (items : List Item)
    (sends : ∀ item ∈ items, Sends quiet cfg opt (body item) (plan item)) :
    Sends quiet cfg opt (items.forM body)
      (items.foldr (fun item rest => andThen (plan item) rest) nothing) := by
  induction items with
  | nil => exact sends_nothing
  | cons item items ih =>
      exact sends_then (sends item List.mem_cons_self)
        (ih fun other member => sends other (List.mem_cons_of_mem _ member))

theorem range_types (key : Key) (member : key ∈ rangeKeys) :
    (stmtDefs key).types = [.int, .int] := by
  simp only [rangeKeys, List.mem_cons, List.not_mem_nil, or_false] at member
  rcases member with rfl | rfl | rfl | rfl <;> rfl

theorem sends_ranges (tabled : Tabled quiet opt)
    (served : (settled cfg.benchmark opt).rangeSelects = true →
      ∀ key ∈ rangeKeys, Served quiet cfg opt key) :
    Sends quiet cfg opt (executeRanges cfg) (ranges (settled cfg.benchmark opt)) := by
  refine sends_if Options.rangeSelects fun on => sends_each rangeKeys fun key member => ?_
  exact sends_on_table tabled (rangeCount key) fun t numbered =>
    sends_by_range key (range_types key member) t (served on key member t numbered)

theorem sends_writes (tabled : Tabled quiet opt)
    (served : ∀ key ∈ writeKeys, Served quiet cfg opt key) :
    Sends quiet cfg opt (executeWrites cfg) (writes (settled cfg.benchmark opt)) := by
  refine sends_then (sends_on_table tabled Options.indexUpdates fun t numbered =>
    sends_by_id .indexUpdates rfl t (served _ (by decide) t numbered)) ?_
  refine sends_then (sends_on_table tabled Options.nonIndexUpdates fun t numbered =>
    sends_non_index t (served _ (by decide) t numbered)) ?_
  exact sends_on_table tabled Options.deleteInserts fun t numbered =>
    sends_delete_insert t (served _ (by decide) t numbered) (served _ (by decide) t numbered)

theorem bracket_values {w : World} (ready : Ready quiet cfg opt w) {place : Place}
    (bracket_ : place = .begin_ ∨ place = .commit) : valuesAt w place = [] := by
  unfold valuesAt
  cases here : w.stmt place with
  | none => rfl
  | some id =>
      have serves := (held_open ready (held_within ready here) here).2.1
      rcases bracket_ with rfl | rfl <;> simp [serves.2]

/-- `begin()` and `commit()`. -/
theorem sends_bracket (place : Place) (bracket_ : place = .begin_ ∨ place = .commit)
    (placed : (settled cfg.benchmark opt).skipTrx = false → Placed quiet cfg opt place) :
    Sends quiet cfg opt (do
        let w ← get
        if w.opt.skipTrx then pure () else execute cfg place)
      (bracket (settled cfg.benchmark opt) place) := by
  intro sent draws
  refine meets_read fun w at_ => meets_from ?_ at_
  rw [at_.ready.options]
  unfold bracket
  cases skip : (settled cfg.benchmark opt).skipTrx with
  | true =>
      simp only [↓reduceIte, List.append_nil]
      exact meets_pure () fun _ at_ => at_
  | false =>
      simp only [Bool.false_eq_true, ↓reduceIte]
      have nothing_ : ∀ values w, Showing quiet cfg opt sent draws values w → values place = [] :=
        fun values w showing => showing.2 ▸ bracket_values showing.1.ready bracket_
      refine meets_named valuesAt fun values => ?_
      refine meets_given (nothing_ values) fun shows => ?_
      exact meets_weaken (meets_execute place (placed skip) shows) (fun _ showing => showing)
        (fun _ _ showing => showing.1) fun _ _ broken => broken

theorem sends_bracketed {script : Lua Unit} {plan : Plan} (sends : Sends quiet cfg opt script plan)
    (placed : (settled cfg.benchmark opt).skipTrx = false → ∀ place,
      place = .begin_ ∨ place = .commit → Placed quiet cfg opt place) :
    Sends quiet cfg opt (do
        begin_ cfg
        script
        commit cfg) (bracketed (settled cfg.benchmark opt) plan) :=
  sends_then (sends_bracket .begin_ (Or.inl rfl) fun kept => placed kept _ (Or.inl rfl))
    (sends_then sends (sends_bracket .commit (Or.inr rfl) fun kept => placed kept _ (Or.inr rfl)))

theorem meets_query (insert_ : cfg.benchmark = .oltpInsert) (text : List UInt8)
    (sent : List Request) (draws : Draws) :
    Meets (At quiet cfg opt sent draws) (query cfg text)
      (fun _ => At quiet cfg opt (sent ++ [{ text := text, values := [] }]) draws)
      (Broken quiet cfg opt sent [{ text := text, values := [] }]) := by
  have same : preparedPlaces cfg.benchmark opt = [] := by rw [insert_, preparedPlaces]
  have next : Meets (At quiet cfg opt sent draws) nextExecute
      (fun answer w => At quiet cfg opt sent draws w ∧ (quiet → Fine answer))
      (Broken quiet cfg opt sent [{ text := text, values := [] }]) := by
    refine meets_modify_get _ fun w at_ => ?_
    obtain ⟨admitted, fine⟩ := admitted_execute at_.ready.admitted
    exact ⟨⟨held_same at_.ready ⟨rfl, rfl, rfl, rfl, rfl, rfl, rfl⟩ at_.ready.results
      at_.ready.owner admitted, at_.sent, at_.draws⟩, fine⟩
  refine meets_bind next fun outcome => meets_read fun w answered_ => ?_
  obtain ⟨at_, fine⟩ := answered_
  rw [if_neg at_.ready.results.open_, at_.sent]
  refine meets_set_then _ (meets_check_error (fun after => after) ?_ fun calm =>
    query_calm cfg.args w.con (fine calm).2)
  refine ⟨?_, rfl, at_.draws⟩
  have ready := at_.ready
  unfold Ready at ready ⊢
  rw [same] at ready ⊢
  exact held_query ready outcome.2.1 outcome.2.2 _

theorem sends_insert (insert_ : cfg.benchmark = .oltpInsert) :
    Sends quiet cfg opt (insertEvent cfg) (insertRow cfg (settled cfg.benchmark opt)) := by
  intro sent draws
  refine meets_bind_known (meets_table_num sent draws) ?_
  refine meets_bind_known (meets_draw Draws.id Draws.dropId) ?_
  refine meets_bind_known (meets_draw Draws.digit Draws.dropDigit) ?_
  refine meets_bind_known (meets_draw Draws.digit Draws.dropDigit) ?_
  refine meets_read fun w at_ => meets_from ?_ at_
  rw [at_.ready.options]
  unfold insertRow
  split
  · exact meets_query insert_ _ sent _
  · exact meets_bind_known (meets_draw Draws.unique Draws.dropUnique) (meets_query insert_ _ sent _)

theorem sends_delete (tabled : Tabled quiet opt) (served : Served quiet cfg opt .deletes) :
    Sends quiet cfg opt (deleteEvent cfg)
      (onTable (settled cfg.benchmark opt) 1 (byId .deletes)) := by
  intro sent draws
  refine meets_bind_known (meets_table_num sent draws) ?_
  refine meets_weaken (sends_by_id .deletes rfl _ (served _ (drawn_numbered tabled _)) sent
    draws.dropWord) (fun _ at_ => at_)
    (fun _ w at_ => ?_) fun _ w broken => ?_
  · show At quiet cfg opt (sent ++ (_ ++ [])) _ w
    rwa [List.append_nil]
  · show Broken quiet cfg opt sent (_ ++ []) _ w
    rwa [List.append_nil]

theorem served_points (b : cfg.benchmark = .oltpPointSelect ∨ cfg.benchmark = .oltpReadOnly ∨
    cfg.benchmark = .oltpReadWrite) : Served quiet cfg opt .pointSelects := by
  refine served_of (List.mem_singleton_self _) fun place member => ?_
  rcases b with b | b | b <;> simp [b, preparedPlaces, member]

theorem served_ranges (b : cfg.benchmark = .oltpReadOnly ∨ cfg.benchmark = .oltpReadWrite)
    (on : opt.rangeSelects = true) (key : Key) (member : key ∈ rangeKeys) :
    Served quiet cfg opt key := by
  refine served_of member fun place member => ?_
  rcases b with b | b <;> simp [b, preparedPlaces, rangePlaces, on, member]

theorem served_writes (b : cfg.benchmark = .oltpReadWrite ∨ cfg.benchmark = .oltpWriteOnly)
    (key : Key) (member : key ∈ writeKeys) : Served quiet cfg opt key := by
  refine served_of member fun place member => ?_
  rcases b with b | b <;> simp [b, preparedPlaces, member]

theorem placed_brackets (b : cfg.benchmark = .oltpReadOnly ∨ cfg.benchmark = .oltpReadWrite ∨
    cfg.benchmark = .oltpWriteOnly) (kept : opt.skipTrx = false) (place : Place)
    (bracket_ : place = .begin_ ∨ place = .commit) : Placed quiet cfg opt place := by
  intro _
  have member : place ∈ transactionPlaces opt := by
    rw [transactionPlaces, kept]
    rcases bracket_ with rfl | rfl <;> decide
  rcases b with b | b | b <;> simp [b, preparedPlaces, member]

/-- Each benchmark sends its transaction. -/
theorem sends_transaction (tabled : Tabled quiet opt) :
    Sends quiet cfg opt (requests cfg) (transaction cfg (settled cfg.benchmark opt)) := by
  obtain ⟨_, skip, selects⟩ := settled_same cfg.benchmark opt
  have points (served : Served quiet cfg opt .pointSelects) :
      Sends quiet cfg opt (executePointSelects cfg) _ :=
    sends_on_table tabled Options.pointSelects fun t numbered =>
      sends_by_id .pointSelects rfl t (served t numbered)
  have index (served : Served quiet cfg opt .indexUpdates) :
      Sends quiet cfg opt (executeIndexUpdates cfg) _ :=
    sends_on_table tabled Options.indexUpdates fun t numbered =>
      sends_by_id .indexUpdates rfl t (served t numbered)
  have nonIndex (served : Served quiet cfg opt .nonIndexUpdates) :
      Sends quiet cfg opt (executeNonIndexUpdates cfg) _ :=
    sends_on_table tabled Options.nonIndexUpdates fun t numbered =>
      sends_non_index t (served t numbered)
  have delete (served : Served quiet cfg opt .deletes) : Sends quiet cfg opt (deleteEvent cfg) _ :=
    sends_delete tabled served
  have insert_ : cfg.benchmark = .oltpInsert → Sends quiet cfg opt (insertEvent cfg) _ :=
    sends_insert
  have ranges_ (b : cfg.benchmark = .oltpReadOnly ∨ cfg.benchmark = .oltpReadWrite) :
      Sends quiet cfg opt (executeRanges cfg) _ :=
    sends_ranges tabled fun on => served_ranges b (selects.symm.trans on)
  have writes_ (b : cfg.benchmark = .oltpReadWrite ∨ cfg.benchmark = .oltpWriteOnly) :
      Sends quiet cfg opt (executeWrites cfg) _ :=
    sends_writes tabled (served_writes b)
  have bracketed_ (b : cfg.benchmark = .oltpReadOnly ∨ cfg.benchmark = .oltpReadWrite ∨
      cfg.benchmark = .oltpWriteOnly) (script : Lua Unit) (plan : Plan)
      (sends : Sends quiet cfg opt script plan) : Sends quiet cfg opt _ _ :=
    sends_bracketed sends fun kept => placed_brackets b (skip.symm.trans kept)
  clear skip selects
  unfold requests transaction
  generalize settled cfg.benchmark opt = now at *
  cases b : cfg.benchmark with
  | oltpDelete =>
      exact delete (served_of (List.mem_singleton_self _) fun place member => by rwa [b])
  | oltpInsert => exact insert_ b
  | oltpPointSelect => exact points (served_points (Or.inl b))
  | oltpReadOnly =>
      have reads := sends_then (points (served_points (Or.inr (Or.inl b)))) (ranges_ (Or.inl b))
      simpa only [bind_assoc] using bracketed_ (Or.inl b) _ _ reads
  | oltpReadWrite =>
      have all := sends_then (points (served_points (Or.inr (Or.inr b))))
        (sends_then (ranges_ (Or.inr b)) (writes_ (Or.inl b)))
      simpa only [bind_assoc] using bracketed_ (Or.inr (Or.inl b)) _ _ all
  | oltpUpdateIndex =>
      exact index (served_of (List.mem_singleton_self _) fun place member => by rwa [b])
  | oltpUpdateNonIndex =>
      exact nonIndex (served_of (List.mem_singleton_self _) fun place member => by rwa [b])
  | oltpWriteOnly => exact bracketed_ (Or.inr (Or.inr b)) _ _ (writes_ (Or.inr b))
end Events

/-! What preparing again leaves alone. -/
section Silence
variable {cfg : Setting}

theorem frames_check_error : Frames World.sent (checkError cfg) := by
  refine frames_read fun w => frames_from ?_ w
  split
  · exact frames_pure ()
  split
  · exact frames_throw _
  split <;> exact frames_throw _

theorem frames_prepare (text : List UInt8) : Frames World.sent (prepare cfg text) := by
  refine frames_bind (fun sent => meets_modify_get _ fun _ same => same) fun (reply, error) => ?_
  refine frames_read fun w => ?_
  have failed : Frames World.sent (checkError cfg >>= fun _ => pure (none : Option Nat)) :=
    frames_bind frames_check_error fun _ => frames_pure none
  simp only
  split
  · exact frames_from failed w
  split
  · exact meets_set_then _ (meets_pure _ fun _ same => same ▸ rfl)
  · exact meets_set_then _ (frames_from failed _)

theorem frames_set_stmt (place : Place) (made : Option Nat) :
    Frames World.sent (setStmt place made) :=
  fun _ => meets_modify _ fun _ same => same

theorem frames_bind_param (id : Nat) (params : List Param) :
    Frames World.sent (bindParam id params) := by
  refine frames_read fun w => ?_
  split
  · exact frames_from (frames_throw _) w
  · exact meets_set _ fun _ _ => rfl

theorem frames_prepare_place (place : Place) :
    Frames World.sent (do
      let made ← prepare cfg (textOf place)
      setStmt place made) :=
  frames_bind (frames_prepare _) fun made => frames_set_stmt place made

theorem frames_prepare_for_each_table (key : Key) :
    Frames World.sent (prepareForEachTable cfg key) := by
  refine frames_read fun w => frames_from (frames_for_each _ _ fun t => ?_) w
  refine frames_bind (frames_prepare _) fun made => ?_
  refine frames_bind (frames_set_stmt _ made) fun _ => ?_
  cases made with
  | none => exact frames_throw _
  | some id => exact frames_bind (fun _ => meets_modify _ fun _ same => same) fun _ =>
      frames_bind_param id _

theorem frames_prepare_keys (keys : List Key) : Frames World.sent (prepareKeys cfg keys) :=
  frames_for_each _ _ frames_prepare_for_each_table

theorem frames_prepare_transaction : Frames World.sent (prepareTransaction cfg) := by
  refine frames_read fun w => frames_from ?_ w
  split
  · exact frames_pure ()
  · exact frames_bind (frames_prepare_place .begin_) fun _ => frames_prepare_place .commit

theorem frames_prepare_ranges : Frames World.sent (prepareRanges cfg) := by
  refine frames_read fun w => frames_from ?_ w
  split
  · exact frames_prepare_keys _
  · exact frames_pure ()

theorem frames_prepare_statements : Frames World.sent (prepareStatements cfg) := by
  unfold prepareStatements
  split
  case h_2 => exact frames_pure ()
  case h_3 =>
    exact frames_bind (fun _ => meets_modify _ fun _ same => same) fun _ => frames_prepare_keys _
  case h_4 =>
    exact frames_bind (frames_prepare_keys _) fun _ =>
      frames_bind frames_prepare_transaction fun _ => frames_prepare_ranges
  case h_5 =>
    exact frames_bind frames_prepare_transaction fun _ =>
      frames_bind (frames_prepare_keys _) fun _ =>
        frames_bind frames_prepare_ranges fun _ => frames_prepare_keys _
  case h_8 =>
    exact frames_bind frames_prepare_transaction fun _ => frames_prepare_keys _
  all_goals exact frames_prepare_keys _

theorem frames_close_statements : Frames World.sent (closeStatements cfg) := by
  refine frames_read fun w => frames_from (frames_for_each _ _ fun place => ?_) w
  refine frames_read fun w => frames_from ?_ w
  cases w.stmt place with
  | none => exact frames_pure ()
  | some id =>
      refine frames_read fun w => ?_
      cases openStatement w.con id with
      | none => exact frames_from (frames_throw _) w
      | some stmt =>
          simp only
          split
          · exact frames_from (frames_pure ()) w
          · exact meets_set _ fun _ _ => rfl

theorem frames_reconnect : Frames World.sent (reconnect cfg) := by
  refine frames_bind (fun _ => meets_modify_get _ fun _ same => same) fun succeeds => ?_
  refine frames_read fun w => ?_
  split
  · exact frames_from (frames_pure ()) w
  split
  · exact frames_from (frames_throw _) w
  split
  · exact meets_set _ fun _ _ => rfl
  · exact meets_set_then _ (meets_throw _ fun _ same => same ▸ rfl)

theorem frames_check_reconnect : Frames World.sent (checkReconnect cfg) := by
  refine frames_read fun w => ?_
  split
  · refine meets_set_then _ (frames_from ?_ _)
    split
    · exact frames_bind frames_close_statements fun _ =>
        frames_bind frames_reconnect fun _ => frames_prepare_statements
    · exact frames_pure ()
  · exact frames_from (frames_pure ()) w
end Silence
end PteSysbench.OltpTransactions
