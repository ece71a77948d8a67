import PteSysbench.OltpTransactions
import Mathlib.Tactic.Ring

/-!
Runs of a thread of the OLTP benchmarks: events that are restarted after ignorable errors,
reconnects after every so many transactions, and the end of the thread.
-/

namespace PteSysbench.OltpRuns

open ActionSystem DbDriver ResultSets ThrowingScripts OltpCommon OltpStatements OltpTransactions

/-! One attempt. -/
section Attempts
variable {quiet : Prop} {cfg : Setting} {opt : Options}

theorem ready_inputs {w : World} (ready : Ready quiet cfg opt w) {answers : Answers}
    (admitted : Admitted quiet cfg answers) (draws : Draws) (sent : List Request) :
    At quiet cfg opt sent draws { w with answers := answers, draws := draws, sent := sent } :=
  ⟨held_same ready ⟨rfl, rfl, rfl, rfl, rfl, rfl, rfl⟩ ready.results ready.owner admitted,
    rfl, rfl⟩

/-- The transaction that an event with these draws is to send. -/
def planned (cfg : Setting) (opt : Options) (draws : Draws) : List Request :=
  (transaction cfg (settled cfg.benchmark opt) draws).1

/-- An event sends its transaction, or throws with a part of it sent; when it asks for a
restart, the thread is still ready. -/
theorem meets_event (tabled : Tabled quiet opt) (connects : Connects quiet cfg opt)
    (draws : Draws) :
    Meets (At quiet cfg opt [] draws) (event cfg)
      (fun _ w => Ready quiet cfg opt w ∧ w.sent = planned cfg opt draws)
      (fun thrown w => ¬ quiet ∧ thrown ≠ .dangling ∧ w.sent <+: planned cfg opt draws ∧
        ∀ errno, thrown = .restart errno → Ready quiet cfg opt w) := by
  refine meets_bind (meets_weaken (sends_transaction tabled [] draws) (fun _ at_ => at_)
    (fun _ _ at_ => at_) fun thrown w broken => ?_) fun _ => ?_
  · obtain ⟨done, part, sent⟩ := broken.sent
    rw [List.nil_append] at sent
    exact ⟨broken.loud, broken.defined, sent ▸ part, fun _ _ => broken.ready⟩
  · refine meets_weaken (meets_both (meets_check_reconnect connects)
      (frames_check_reconnect (planned cfg opt draws))) (fun w at_ => ⟨at_.ready, at_.sent⟩)
      (fun _ _ known => known) ?_
    rintro thrown w ⟨⟨rfl | rfl, loud⟩, sent⟩
    · exact ⟨loud, by simp, sent ▸ List.prefix_rfl, by simp⟩
    · exact ⟨loud, by simp, sent ▸ List.prefix_rfl, by simp⟩
end Attempts

/-! Runs. -/
section Runs
variable {quiet : Prop} {cfg : Setting} {opt : Options} {s t : Thread}

/-- No failing prepare is let through as ignorable by the hook. Without a hook there is
none to be. -/
def FinalAnswers (cfg : Setting) : Action → Prop
  | .init answers | .noMore answers | .attempt answers _ =>
      ∀ answer ∈ answers.prepares, answer.1 = .refused → cfg.ignorable answer.2.errno = false
  | .more => True

/-- The server reports no failure. -/
def CalmAnswers : Action → Prop
  | .init answers | .noMore answers | .attempt answers _ => Calm answers
  | .more => True

def AdmittedAnswers (quiet : Prop) (cfg : Setting) : Action → Prop
  | .init answers | .noMore answers | .attempt answers _ => Admitted quiet cfg answers
  | .more => True

theorem final_admitted {a : Action} (final : FinalAnswers cfg a) : AdmittedAnswers False cfg a := by
  cases a with
  | more => trivial
  | init answers | noMore answers | attempt answers draws => exact ⟨final, False.elim⟩

theorem calm_admitted {a : Action} (calm : CalmAnswers a) : AdmittedAnswers True cfg a := by
  cases a with
  | more => trivial
  | init answers | noMore answers | attempt answers draws =>
      exact ⟨fun answer member refused => absurd refused (calm.prepares answer member),
        fun _ => calm⟩

/-- An attempt that returned has sent its transaction, any other one a part from its start. -/
def AttemptSound (cfg : Setting) (opt : Options) (attempt : Attempt) : Prop :=
  attempt.sent <+: planned cfg opt attempt.draws ∧
    (attempt.returned = true → attempt.sent = planned cfg opt attempt.draws)

/-- What is known of the statements in each phase. -/
def PhaseSound (quiet : Prop) (cfg : Setting) (opt : Options) (s : Thread) : Prop :=
  match s.phase with
  | .created => s.world = (OltpCommon.created opt).world
  | .between | .inEvent => Ready quiet cfg opt s.world
  | .done => ∀ id, ¬ Live s.world.con id
  | .failed | .crashed => ¬ quiet
  | .dangling => False

/-- Events that have been started and not stopped. -/
def unstopped : Phase → Option Nat
  | .created | .between | .done => some 0
  | .inEvent => some 1
  | .failed | .dangling | .crashed => none

structure ThreadSound (quiet : Prop) (cfg : Setting) (opt : Options) (s : Thread) : Prop where
  phase : PhaseSound quiet cfg opt s
  attempts : ∀ attempt ∈ s.attempts, AttemptSound cfg opt attempt
  calm : quiet → ∀ attempt ∈ s.attempts, attempt.returned = true
  stopped : s.stopped = s.attempts.countP Attempt.returned
  started : ∀ n, unstopped s.phase = some n → s.started = s.stopped + n

theorem bare_created {answers : Answers} (admitted : Admitted quiet cfg answers) :
    Bare quiet cfg (settled cfg.benchmark opt) (preparedPlaces cfg.benchmark opt)
      { (OltpCommon.created opt).world with answers := answers } where
  options := rfl
  results := connected_invariant cfg.args
  made place member := member.elim
  owned id live := by
    obtain ⟨stmt, here, _⟩ := live
    cases here
  apart p member := member.elim
  within place present := by simp [OltpCommon.created] at present
  blank id _ := rfl
  owner some_ := absurd rfl some_
  works id stmt here := nomatch here
  admitted := admitted

theorem created_sound : ThreadSound quiet cfg opt (OltpCommon.created opt) where
  phase := rfl
  attempts attempt member := absurd member List.not_mem_nil
  calm _ attempt member := absurd member List.not_mem_nil
  stopped := rfl
  started n same := by
    cases same
    rfl

/-- A script that ends in what the next phase asks for, or ends the thread. -/
theorem run_sound (sound : ThreadSound quiet cfg opt s) {phase : Phase} {script : Lua Unit}
    {answers : Answers}
    (meets : Meets (fun w => w = { s.world with answers := answers }) script
      (fun _ w => PhaseSound quiet cfg opt { s with phase := phase, world := w })
      (Ends quiet))
    (same : ∀ n, unstopped phase = some n → s.started = s.stopped + n) :
    ThreadSound quiet cfg opt (s.run phase script answers) := by
  unfold Thread.run
  cases ended : script { s.world with answers := answers } with
  | ok value world =>
      exact ⟨meets_ok meets rfl ended, sound.attempts, sound.calm, sound.stopped, same⟩
  | error thrown world =>
      obtain ⟨rfl | rfl, loud⟩ := meets_error meets rfl ended
      · exact ⟨loud, sound.attempts, sound.calm, sound.stopped, nofun⟩
      · exact ⟨loud, sound.attempts, sound.calm, sound.stopped, nofun⟩

theorem init_sound (sound : ThreadSound quiet cfg opt s) (fresh : s.phase = .created)
    {answers : Answers} (admitted : Admitted quiet cfg answers) :
    ThreadSound quiet cfg opt (s.run .between (threadInit cfg) answers) := by
  have world : s.world = (OltpCommon.created opt).world := by
    have known := sound.phase
    rwa [PhaseSound, fresh] at known
  refine run_sound sound (meets_modify_then _ fun w same => ?_) fun n zero => ?_
  · subst same
    refine meets_from meets_prepare_all ?_
    rw [world]
    exact bare_created admitted
  · exact sound.started n (by rw [fresh]; exact zero)

theorem done_sound (sound : ThreadSound quiet cfg opt s) (between : s.phase = .between)
    {answers : Answers} (admitted : Admitted quiet cfg answers) :
    ThreadSound quiet cfg opt (s.run .done (threadDone cfg) answers) := by
  have ready : Ready quiet cfg opt s.world := by
    have known := sound.phase
    rwa [PhaseSound, between] at known
  refine run_sound sound (meets_from ?_ (ready_inputs ready admitted s.world.draws
    s.world.sent).ready) fun n zero => ?_
  · refine meets_bind meets_close_all fun _ => meets_modify _ fun w held id live => ?_
    have closed : ∀ id, ¬ Live w.con id := fun id live => (held.owned id live).elim fun _ no => no.1
    rw [if_neg held.results.open_] at live
    refine closed id ((live_congr ?_ id).mp live)
    exact (freed_first_settles cfg.args w.con held.results).2.1.stmts
  · exact sound.started n (by rw [between]; exact zero)

theorem attempts_after (sound : ThreadSound quiet cfg opt s) {attempt : Attempt}
    (here : AttemptSound cfg opt attempt) :
    ∀ other ∈ s.attempts ++ [attempt], AttemptSound cfg opt other := by
  intro other member
  rcases List.mem_append.mp member with old | new
  · exact sound.attempts other old
  · exact List.mem_singleton.mp new ▸ here

theorem attempt_sound (tabled : Tabled quiet opt) (connects : Connects quiet cfg opt)
    (sound : ThreadSound quiet cfg opt s) (inEvent : s.phase = .inEvent) {answers : Answers}
    (admitted : Admitted quiet cfg answers) (draws : Draws) :
    ThreadSound quiet cfg opt (attemptStep cfg s answers draws) := by
  have ready : Ready quiet cfg opt s.world := by
    have known := sound.phase
    rwa [PhaseSound, inEvent] at known
  have start := ready_inputs ready admitted draws []
  have running := sound.started 1 (by rw [inEvent]; rfl)
  unfold attemptStep
  cases ended : event cfg { s.world with answers := answers, draws := draws, sent := [] } with
  | ok value world =>
      obtain ⟨after, sent⟩ := meets_ok (meets_event tabled connects draws) start ended
      refine ⟨after, attempts_after sound ⟨sent ▸ List.prefix_rfl, fun _ => sent⟩, ?_, ?_, ?_⟩
      · intro calm other member
        rcases List.mem_append.mp member with old | new
        · exact sound.calm calm other old
        · rw [List.mem_singleton.mp new]
      · simp [sound.stopped]
      · intro n zero
        cases zero
        exact running
  | error thrown world =>
      obtain ⟨loud, defined, part, again⟩ :=
        meets_error (meets_event tabled connects draws) start ended
      let failed := Attempt.mk draws world.sent false
      have attempts : ∀ other ∈ s.attempts ++ [failed], AttemptSound cfg opt other :=
        attempts_after sound ⟨part, nofun⟩
      have stopped : s.stopped = (s.attempts ++ [failed]).countP Attempt.returned := by
        simp [sound.stopped, failed]
      cases thrown with
      | dangling => exact absurd rfl defined
      | other | nullRead => exact ⟨loud, attempts, fun calm => absurd calm loud, stopped, nofun⟩
      | restart errno =>
          -- the hook runs on the state that the failed attempt has left
          have here := again errno rfl
          have kept : ThreadSound quiet cfg opt { s with
              world := world, attempts := s.attempts ++ [failed] } := by
            refine ⟨?_, attempts, fun calm => absurd calm loud, stopped,
              fun n one => sound.started n one⟩
            rw [PhaseSound, inEvent]
            exact here
          refine run_sound kept (meets_from (meets_before_restart errno) here) fun n one => ?_
          exact sound.started n (by rw [inEvent]; exact one)

theorem step_sound (tabled : Tabled quiet opt) (connects : Connects quiet cfg opt)
    (sound : ThreadSound quiet cfg opt s) (a : Action)
    (admitted : AdmittedAnswers quiet cfg a) (taken : step cfg s a = some t) :
    ThreadSound quiet cfg opt t := by
  cases a with
  | init answers =>
      obtain ⟨fresh, rfl⟩ := Option.ite_none_right_eq_some.mp taken |>.imp_right Option.some.inj
      exact init_sound sound fresh admitted
  | more =>
      obtain ⟨between, rfl⟩ := Option.ite_none_right_eq_some.mp taken |>.imp_right Option.some.inj
      have known := sound.phase
      rw [PhaseSound, between] at known
      refine ⟨known, sound.attempts, sound.calm, sound.stopped, fun n one => ?_⟩
      cases one
      have counts := sound.started 0 (by rw [between]; rfl)
      exact congrArg (· + 1) counts
  | noMore answers =>
      obtain ⟨between, rfl⟩ := Option.ite_none_right_eq_some.mp taken |>.imp_right Option.some.inj
      exact done_sound sound between admitted
  | attempt answers draws =>
      obtain ⟨inEvent, rfl⟩ := Option.ite_none_right_eq_some.mp taken |>.imp_right Option.some.inj
      exact attempt_sound tabled connects sound inEvent admitted draws

theorem runs_sound (tabled : Tabled quiet opt) (connects : Connects quiet cfg opt)
    (schedule : List Action)
    (admitted : ∀ a ∈ schedule, AdmittedAnswers quiet cfg a) :
    Always (step cfg) (ThreadSound quiet cfg opt) (OltpCommon.created opt) schedule :=
  guarded_keeps
    (fun _ a _ sound admitted taken => step_sound tabled connects sound a admitted taken)
    (OltpCommon.created opt) schedule created_sound
    (guarded_of_free _ schedule fun a member _ => admitted a member)

/-- With any answers there may be a failure. -/
theorem any_run_sound (opt : Options) (schedule : List Action)
    (final : ∀ a ∈ schedule, FinalAnswers cfg a) :
    Always (step cfg) (ThreadSound False cfg opt) (OltpCommon.created opt) schedule :=
  runs_sound False.elim False.elim schedule fun a member => final_admitted (final a member)

/-- The open statements are those in the table `stmt`, each in one place. -/
structure TableOpen (w : World) : Prop where
  live : ∀ id, Live w.con id ↔ ∃ place, w.stmt place = some id
  once : ∀ p q id, w.stmt p = some id → w.stmt q = some id → p = q
  results : ResultsSound w.con

theorem ready_open {w : World} (ready : Ready quiet cfg opt w) : TableOpen w where
  live id := by
    constructor
    · intro live
      obtain ⟨place, _, here⟩ := ready.owned id live
      exact ⟨place, here⟩
    · intro ⟨place, here⟩
      exact (held_open ready (held_within ready here) here).1
  once p q id first second :=
    ready.apart p (held_within ready first) q (held_within ready second)
      (first.trans second.symm)
  results := ready.results.sound

/-- Whatever the server answers, no statement is used after it was closed, the open ones
are those in the table `stmt`, and `thread_done` leaves none open, as long as the hook
`sql_error_ignorable` lets no error of a prepare through. -/
theorem statements_used_open (cfg : Setting) (opt : Options) (schedule : List Action)
    (final : ∀ a ∈ schedule, FinalAnswers cfg a) :
    Always (step cfg) (fun s => s.phase ≠ .dangling ∧
      (s.phase = .between ∨ s.phase = .inEvent → TableOpen s.world) ∧
      (s.phase = .done → ∀ id, ¬ Live s.world.con id)) (OltpCommon.created opt) schedule := by
  refine always_mono (fun s sound => ?_) _ schedule (any_run_sound opt schedule final)
  have known := sound.phase
  unfold PhaseSound at known
  cases phase : s.phase <;> rw [phase] at known
  case dangling => exact known.elim
  case between | inEvent => exact ⟨nofun, fun _ => ready_open known, nofun⟩
  case done => exact ⟨nofun, by simp, fun _ => known⟩
  case created | failed | crashed => exact ⟨nofun, by simp, nofun⟩

/-- An event that returns has sent its transaction, each failed attempt at it a part from
its start; every event started but the current one has been stopped, once. -/
theorem events_send_transactions (cfg : Setting) (opt : Options) (schedule : List Action)
    (final : ∀ a ∈ schedule, FinalAnswers cfg a) :
    Always (step cfg) (fun s => (∀ attempt ∈ s.attempts, AttemptSound cfg opt attempt) ∧
      s.stopped = s.attempts.countP Attempt.returned ∧
      ∀ n, unstopped s.phase = some n → s.started = s.stopped + n)
      (OltpCommon.created opt) schedule :=
  always_mono (fun _ sound => ⟨sound.attempts, sound.stopped, sound.started⟩) _ schedule
    (any_run_sound opt schedule final)

theorem no_hook_final (unset : ∀ errno, cfg.ignorable errno = false) (a : Action) :
    FinalAnswers cfg a := by
  cases a with
  | more => trivial
  | init answers | noMore answers | attempt answers draws => exact fun _ _ _ => unset _

/-- While the server reports no failure, every event returns with its transaction sent,
and the thread goes on. A dry run does so without reconnects only. -/
theorem calm_events_return (cfg : Setting) (opt : Options)
    (tables : 1 ≤ opt.tables ∧ opt.tables < 2 ^ 32)
    (connects : cfg.args.dryRun = true → opt.reconnect ≤ 0) (schedule : List Action)
    (calm : ∀ a ∈ schedule, CalmAnswers a) :
    Always (step cfg) (fun s => s.phase ≠ .failed ∧ s.phase ≠ .dangling ∧ s.phase ≠ .crashed ∧
      s.stopped = s.attempts.length ∧ ∀ attempt ∈ s.attempts, attempt.returned = true ∧
        attempt.sent = planned cfg opt attempt.draws) (OltpCommon.created opt) schedule := by
  have tabled : Tabled True opt := fun _ => tables
  have admitted (a : Action) (member : a ∈ schedule) : AdmittedAnswers True cfg a :=
    calm_admitted (calm a member)
  have connected : Connects True cfg opt := fun _ => connects
  refine always_mono (fun s sound => ?_) _ schedule
    (runs_sound tabled connected schedule admitted)
  have returned := sound.calm trivial
  have known := sound.phase
  have attempts : s.stopped = s.attempts.length :=
    sound.stopped.trans (List.countP_eq_length.mpr returned)
  unfold PhaseSound at known
  refine ⟨?_, ?_, ?_, attempts, fun attempt member => ⟨returned attempt member,
    (sound.attempts attempt member).2 (returned attempt member)⟩⟩
  · intro failed
    rw [failed] at known
    exact known trivial
  · intro dangling
    rw [dangling] at known
    exact known
  · intro crashed
    rw [crashed] at known
    exact known trivial

def anyOrder : KeyOrder where
  keys := [.inserts, .deletes, .pointSelects, .simpleRanges, .sumRanges, .orderRanges,
    .distinctRanges, .indexUpdates, .nonIndexUpdates]
  once := by decide
  every key := by cases key <;> decide

/-- oltp_delete with server-side statements, without a hook. -/
def deleting : Setting := ⟨⟨true, false⟩, .oltpDelete, fun _ => false, anyOrder, false⟩

/-- One table, and a new connection after every event. -/
def reconnecting : Options := ⟨100, 1, 10, 1, 1, 1, 1, 1, 1, 1, 1, true, true, false, 1⟩

/-- The connection is lost under the first attempt. -/
def lostOnce : List Action :=
  [.init ⟨[], [], []⟩, .more,
    .attempt ⟨[], [(true, .failed true true, ⟨2013, true⟩)], []⟩ ⟨[], [3], [], []⟩,
    .attempt ⟨[], [], []⟩ ⟨[], [3], [], []⟩, .noMore ⟨[], [], []⟩]

theorem lost_once_used_open :
    Always (step deleting) (fun s => s.phase ≠ .dangling ∧
      (s.phase = .between ∨ s.phase = .inEvent → TableOpen s.world) ∧
      (s.phase = .done → ∀ id, ¬ Live s.world.con id)) (OltpCommon.created reconnecting) lostOnce :=
  statements_used_open deleting reconnecting lostOnce fun a _ => no_hook_final (fun _ => rfl) a

theorem lost_once_sent :
    Always (step deleting) (fun s =>
      (∀ attempt ∈ s.attempts, AttemptSound deleting reconnecting attempt) ∧
      s.stopped = s.attempts.countP Attempt.returned ∧
      ∀ n, unstopped s.phase = some n → s.started = s.stopped + n)
      (OltpCommon.created reconnecting) lostOnce ∧
    (run (step deleting) (OltpCommon.created reconnecting) lostOnce).map
      (fun s => (s.phase, s.attempts.map Attempt.returned)) = some (.done, [false, true]) :=
  ⟨events_send_transactions deleting reconnecting lostOnce fun a _ =>
    no_hook_final (fun _ => rfl) a, by decide +kernel⟩
/-- Two events with a new connection after each. -/
def calmTwice : List Action :=
  [.init ⟨[], [], []⟩, .more,
    .attempt ⟨[(.prepared, ⟨0, false⟩)], [(true, .noRows true, ⟨0, false⟩)], [true]⟩
      ⟨[], [3], [], []⟩,
    .more, .attempt ⟨[], [], []⟩ ⟨[], [5], [], []⟩, .noMore ⟨[], [], []⟩]

theorem calm_twice_returns :
    Always (step deleting) (fun s => s.phase ≠ .failed ∧ s.phase ≠ .dangling ∧
      s.phase ≠ .crashed ∧ s.stopped = s.attempts.length ∧
      ∀ attempt ∈ s.attempts, attempt.returned = true ∧
        attempt.sent = planned deleting reconnecting attempt.draws)
      (OltpCommon.created reconnecting) calmTwice ∧
    (run (step deleting) (OltpCommon.created reconnecting) calmTwice).map
      (fun s => (s.phase, s.stopped)) = some (.done, 2) := by
  have silent : Calm ⟨[], [], []⟩ := ⟨by simp, by simp, by simp⟩
  have answered_ : Calm ⟨[(.prepared, ⟨0, false⟩)], [(true, .noRows true, ⟨0, false⟩)], [true]⟩ :=
    ⟨by simp, by simp, by simp⟩
  refine ⟨calm_events_return deleting reconnecting (by decide) (fun dry => nomatch dry) calmTwice
    ?_, by decide +kernel⟩
  simpa [calmTwice, CalmAnswers, silent] using answered_

/-- A dry run reads through the null pointer at its first reconnect. -/
example :
    let dry : Setting := { deleting with args := ⟨true, true⟩ }
    (run (step dry) (OltpCommon.created reconnecting) (calmTwice.take 3)).map
      (fun s => s.phase) = some .crashed := by decide +kernel
end Runs

/-! The mix of statements. -/
section Mix

/-- Whatever is drawn, the plan has so many requests of a kind. -/
def Counts (kind : Request → Bool) (plan : Plan) (n : Nat) : Prop :=
  ∀ draws, (plan draws).1.countP kind = n

variable {kind : Request → Bool} {opt : Options}

theorem counts_nothing : Counts kind nothing 0 := fun _ => rfl

theorem counts_then {first second : Plan} {m n : Nat} (one : Counts kind first m)
    (two : Counts kind second n) : Counts kind (andThen first second) (m + n) := by
  intro draws
  rw [andThen, List.countP_append, one, two]

theorem counts_repeated {turn : Plan} {m : Nat} (one : Counts kind turn m) (n : Nat) :
    Counts kind (repeated turn n) (n * m) := by
  induction n with
  | zero => exact (Nat.zero_mul m).symm ▸ counts_nothing
  | succ n ih =>
      rw [Nat.succ_mul, Nat.add_comm (n * m)]
      exact counts_then one ih

theorem counts_on_table (opt : Options) {turn : Nat → Plan} {m : Nat}
    (one : ∀ t, Counts kind (turn t) m) (count : Int) :
    Counts kind (onTable opt count turn) (count.toNat * m) :=
  fun draws => counts_repeated (one _) count.toNat draws.dropWord

/-- The request starts with this word. -/
def startsWith (word : String) (request : Request) : Bool :=
  (ascii word).isPrefixOf request.text

def reads : Request → Bool := startsWith "SELECT "

def changes (request : Request) : Bool :=
  startsWith "UPDATE " request || startsWith "DELETE " request || startsWith "INSERT " request

/-- Requests of a transaction: SELECTs, changes of rows, and BEGIN with COMMIT. -/
structure Mix where
  reads : Nat
  changes : Nat
  brackets : Nat

def rangeReads (opt : Options) : Nat :=
  if opt.rangeSelects then
    opt.simpleRanges.toNat + opt.sumRanges.toNat + opt.orderRanges.toNat +
      opt.distinctRanges.toNat
  else 0

def rowChanges (opt : Options) : Nat :=
  opt.indexUpdates.toNat + opt.nonIndexUpdates.toNat + opt.deleteInserts.toNat * 2

def brackets (opt : Options) : Nat := if opt.skipTrx then 0 else 2

/-- What the options make of a transaction. -/
def mixOf (opt : Options) : Benchmark → Mix
  | .oltpDelete | .oltpInsert => ⟨0, 1, 0⟩
  | .oltpPointSelect => ⟨1, 0, 0⟩
  | .oltpReadOnly => ⟨opt.pointSelects.toNat + rangeReads opt, 0, brackets opt⟩
  | .oltpReadWrite =>
      ⟨opt.pointSelects.toNat + rangeReads opt, rowChanges opt, brackets opt⟩
  | .oltpUpdateIndex => ⟨0, opt.indexUpdates.toNat, 0⟩
  | .oltpUpdateNonIndex => ⟨0, opt.nonIndexUpdates.toNat, 0⟩
  | .oltpWriteOnly => ⟨0, rowChanges opt, brackets opt⟩

/-- How many requests of a kind stand for a read, a change and a bracket. -/
structure Weighs (kind : Request → Bool) (read change bracket : Nat) : Prop where
  row : ∀ t key values, (kind (rowRequest t key values)).toNat =
    if key ∈ writeKeys then change else read
  insert_ : ∀ t id k c pad, (kind ⟨insertText t id k c pad, []⟩).toNat = change
  bracket : ∀ place, place = .begin_ ∨ place = .commit → (kind ⟨textOf place, []⟩).toNat = bracket

theorem count_one (request : Request) : [request].countP kind = (kind request).toNat := by
  cases here : kind request <;> simp [here]

theorem count_two (first second : Request) :
    [first, second].countP kind = (kind first).toNat + (kind second).toNat := by
  rw [← count_one, ← count_one, ← List.countP_append, List.singleton_append]

variable {read change outer : Nat}

theorem counts_by_id (weighs : Weighs kind read change outer) (key : Key) (t : Nat) :
    Counts kind (byId key t) (if key ∈ writeKeys then change else read) := by
  intro draws
  rw [byId, count_one, weighs.row]

theorem counts_by_range (opt : Options) (weighs : Weighs kind read change outer) (key : Key)
    (range : key ∈ rangeKeys) (t : Nat) : Counts kind (byRange opt key t) read := by
  have other : key ∉ writeKeys := by
    revert range
    cases key <;> decide
  intro draws
  rw [byRange, count_one, weighs.row, if_neg other]

theorem counts_ranges (opt : Options) (weighs : Weighs kind read change outer) :
    Counts kind (ranges opt) (rangeReads opt * read) := by
  unfold ranges rangeReads
  split
  · have each := fun key range => counts_on_table opt
      (counts_by_range opt weighs key range) (rangeCount key opt)
    have all := counts_then (each .simpleRanges (by decide)) (counts_then
      (each .sumRanges (by decide)) (counts_then (each .orderRanges (by decide))
        (counts_then (each .distinctRanges (by decide)) counts_nothing)))
    have sum : (opt.simpleRanges.toNat + opt.sumRanges.toNat + opt.orderRanges.toNat +
        opt.distinctRanges.toNat) * read = opt.simpleRanges.toNat * read +
          (opt.sumRanges.toNat * read + (opt.orderRanges.toNat * read +
            (opt.distinctRanges.toNat * read + 0))) := by ring
    rw [sum]
    exact all
  · rw [Nat.zero_mul]
    exact counts_nothing

theorem counts_non_index (weighs : Weighs kind read change outer) (t : Nat) :
    Counts kind (nonIndexUpdate t) change := by
  intro draws
  rw [nonIndexUpdate, count_one, weighs.row, if_pos (by decide)]

theorem counts_writes (opt : Options) (weighs : Weighs kind read change outer) :
    Counts kind (writes opt) (rowChanges opt * change) := by
  have index : ∀ t, Counts kind (byId .indexUpdates t) change := counts_by_id weighs .indexUpdates
  have nonIndex := counts_non_index weighs
  have deleteInsert_ : ∀ t, Counts kind (deleteInsert t) (change + change) := by
    intro t draws
    rw [deleteInsert, count_two, weighs.row, weighs.row, if_pos (by decide), if_pos (by decide)]
  have all := counts_then (counts_on_table opt index opt.indexUpdates)
    (counts_then (counts_on_table opt nonIndex opt.nonIndexUpdates)
      (counts_on_table opt deleteInsert_ opt.deleteInserts))
  have sum : rowChanges opt * change = opt.indexUpdates.toNat * change +
      (opt.nonIndexUpdates.toNat * change + opt.deleteInserts.toNat * (change + change)) := by
    unfold rowChanges
    ring
  rw [sum]
  exact all

theorem counts_bracketed (opt : Options) (weighs : Weighs kind read change outer) {plan : Plan}
    {n : Nat} (one : Counts kind plan n) :
    Counts kind (bracketed opt plan) (n + brackets opt * outer) := by
  intro draws
  unfold bracketed andThen bracket brackets
  cases opt.skipTrx with
  | true => simpa using one draws
  | false =>
      have begin_ := weighs.bracket .begin_ (Or.inl rfl)
      have commit := weighs.bracket .commit (Or.inr rfl)
      simp only [Bool.false_eq_true, ↓reduceIte, List.countP_append, count_one, begin_, commit,
        one draws]
      omega

theorem counts_as {plan : Plan} {m n : Nat} (counts : Counts kind plan m) (same : m = n) :
    Counts kind plan n :=
  same ▸ counts

theorem counts_insert (opt : Options) (weighs : Weighs kind read change outer) (cfg : Setting) :
    Counts kind (insertRow cfg opt) change := by
  intro draws
  unfold insertRow
  split
  · rw [count_one, weighs.insert_]
  · rw [count_one, weighs.insert_]

theorem counts_transaction (opt : Options) (weighs : Weighs kind read change outer)
    (cfg : Setting) : Counts kind (transaction cfg (settled cfg.benchmark opt))
      ((mixOf opt cfg.benchmark).reads * read + (mixOf opt cfg.benchmark).changes * change +
        (mixOf opt cfg.benchmark).brackets * outer) := by
  have points : ∀ t, Counts kind (byId .pointSelects t) read := counts_by_id weighs .pointSelects
  have deletes : ∀ t, Counts kind (byId .deletes t) change := counts_by_id weighs .deletes
  have index : ∀ t, Counts kind (byId .indexUpdates t) change := counts_by_id weighs .indexUpdates
  have nonIndex := counts_non_index weighs
  have insert_ := fun now => counts_insert now weighs cfg
  unfold transaction
  cases cfg.benchmark with
  | oltpDelete => exact counts_as (counts_on_table _ deletes 1) (by simp [mixOf])
  | oltpInsert => exact counts_as (insert_ _) (by simp [mixOf])
  | oltpPointSelect =>
      exact counts_as (counts_on_table _ points _) (by simp [mixOf, settled])
  | oltpReadOnly =>
      have body := counts_then (counts_on_table opt points opt.pointSelects)
        (counts_ranges opt weighs)
      exact counts_as (counts_bracketed opt weighs body) (by simp only [mixOf]; ring)
  | oltpReadWrite =>
      have body := counts_then (counts_on_table opt points opt.pointSelects)
        (counts_then (counts_ranges opt weighs) (counts_writes opt weighs))
      exact counts_as (counts_bracketed opt weighs body) (by simp only [mixOf]; ring)
  | oltpUpdateIndex => exact counts_as (counts_on_table _ index _) (by simp [mixOf, settled])
  | oltpUpdateNonIndex => exact counts_as (counts_on_table _ nonIndex _) (by simp [mixOf, settled])
  | oltpWriteOnly =>
      exact counts_as (counts_bracketed opt weighs (counts_writes opt weighs))
        (by simp only [mixOf]; ring)

theorem weighs_reads : Weighs reads 1 0 0 where
  row t key values := by cases key <;> rfl
  insert_ t id k c pad := by cases id <;> rfl
  bracket := by rintro place (rfl | rfl) <;> rfl

theorem weighs_changes : Weighs changes 0 1 0 where
  row t key values := by cases key <;> rfl
  insert_ t id k c pad := by cases id <;> rfl
  bracket := by rintro place (rfl | rfl) <;> rfl

theorem weighs_all : Weighs (fun _ => true) 1 1 1 where
  row _ _ _ := (ite_self 1).symm
  insert_ _ _ _ _ _ := rfl
  bracket _ _ := rfl

/-- The statements of a transaction are fixed by the options, whatever is drawn. -/
theorem transaction_mix (cfg : Setting) (opt : Options) (draws : Draws) :
    (planned cfg opt draws).countP reads = (mixOf opt cfg.benchmark).reads ∧
    (planned cfg opt draws).countP changes = (mixOf opt cfg.benchmark).changes ∧
    (planned cfg opt draws).length = (mixOf opt cfg.benchmark).reads +
      (mixOf opt cfg.benchmark).changes + (mixOf opt cfg.benchmark).brackets := by
  unfold planned
  refine ⟨?_, ?_, ?_⟩
  · simpa using counts_transaction opt weighs_reads cfg draws
  · simpa using counts_transaction opt weighs_changes cfg draws
  · simpa using counts_transaction opt weighs_all cfg draws
end Mix
end PteSysbench.OltpRuns
