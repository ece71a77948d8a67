import PteSysbench.CriticalSections
import Mathlib.Data.List.FinRange

/-!
The forced shutdown of sysbench.c, from the worker barrier to `alarm(0)`. SIGALRM may
interrupt any thread; `sigalrm_forced_shutdown_handler` then runs on top of what the
thread was doing and takes the locks of the timers, of the histogram and of the logger.
What the threads do is given by the sections they go through; conditions on other data
are choices.
-/

namespace PteSysbench.ForcedShutdown

open ActionSystem CriticalSections

variable {n : Nat}

inductive Lock (n : Nat) where
  | execTimer
  | intermediateTimer
  | checkpointTimer
  | timer (i : Fin n)
  | timerCopy (i : Fin n)
  | histogram
  | text
  deriving DecidableEq

inductive Thread (n : Nat) where
  | main
  | worker (i : Fin n)
  | report
  | checkpoints
  | eventgen
  deriving DecidableEq

abbrev Code (n : Nat) := List (Section (Lock n))

/-- Whether there is a warmup, intermediate reports, checkpoint reports and a rate, with
the level of the log. -/
structure Globals where
  warmup : Bool
  reports : Bool
  checkpoints : Bool
  rate : Bool
  debug : Bool
  verbosity : UInt8

/-! Sections of the functions. -/
section Functions

def sbTimerStart (timer : Lock n) : Code n := [⟨timer, none⟩]

def sbTimerStop (timer : Lock n) : Code n := [⟨timer, none⟩]

/-- The lock of the copy is initialized inside. -/
def sbTimerCheckpoint (i : Fin n) : Code n := [⟨.timer i, some (.timerCopy i)⟩]

def sbHistogramGetPctIntermediate : Code n := [⟨.histogram, none⟩]

def sbHistogramGetPctCheckpoint : Code n := [⟨.histogram, none⟩]

def logFatal : UInt8 := 0
def logNotice : UInt8 := 3
def logInfo : UInt8 := 4
def logDebug : UInt8 := 5

/-- `text_handler_process` without LOG_MSG_TEXT_ALLOW_DUPLICATES, which `log_timestamp`
sets. -/
def logText (cfg : Globals) (priority : UInt8) : Code n :=
  if cfg.verbosity < priority then [] else [⟨.text, none⟩]

def logLines (cfg : Globals) (priority : UInt8) (count : Nat) : Code n :=
  (List.replicate count (logText cfg priority)).flatten

def checkpoint (n : Nat) : Code n :=
  sbHistogramGetPctCheckpoint ++ (List.finRange n).flatMap sbTimerCheckpoint

/-- `running` are the copies for which `sb_timer_running` holds. -/
def sbReportCumulative (cfg : Globals) (forced : Bool) (running : Fin n → Bool) : Code n :=
  let unfinished := if forced then (List.finRange n).filter running else []
  unfinished.flatMap (fun i => sbTimerStop (.timerCopy i)) ++
    logLines cfg logNotice (if unfinished.isEmpty then 0 else 2) ++
    logLines cfg logNotice 17 ++
    if cfg.debug then logLines cfg logDebug (1 + 2 * n) ++ logLines cfg logNotice 1 else []

def sigalrmForcedShutdownHandler (cfg : Globals) (running : Fin n → Bool) : Code n :=
  sbTimerStop .execTimer ++ sbTimerStop .intermediateTimer ++ sbTimerStop .checkpointTimer ++
    logText cfg logFatal ++ checkpoint n ++ sbReportCumulative cfg true running
end Functions

/-! The threads. -/
section Threads

/-- Where a thread is between its sections. The main thread is `ended` behind `alarm(0)`. -/
inductive Pc where
  | arming
  | warmup
  | reportBarrier
  | joining
  | stopping
  | moreEvents
  | event
  | leaving
  | created
  | waiting
  | sleeping
  | reporting
  | generating
  | ended
  | handling
  deriving DecidableEq

structure State (n : Nat) where
  locks : CriticalSections.State (Thread n) (Lock n)
  pc : Thread n → Pc
  /-- The alarm is set and SIGALRM has not been delivered. -/
  armed : Bool
  forced : Bool
  exited : Bool

/-- A branch on data that is not modelled. -/
inductive Choice (n : Nat) where
  | onward
  | quit (logs : Bool)
  | log (priority : UInt8)
  | report (running : Fin n → Bool)

/-- Where a thread goes on, and the sections it goes through first. Tests and scripts may
log between and in their events. -/
def next (cfg : Globals) (s : State n) : Choice n → Thread n → Pc → Option (Pc × Code n)
  | _, .main, .arming => some (.warmup, if cfg.warmup then logText cfg logNotice else [])
  | _, .main, .warmup => some (.reportBarrier, if cfg.warmup then checkpoint n else [])
  | _, .main, .joining =>
      if ∀ i, s.pc (.worker i) = .ended then
        some (.stopping, sbTimerStop .execTimer ++ sbTimerStop .intermediateTimer ++
          sbTimerStop .checkpointTimer)
      else none
  | _, .main, .stopping => some (.ended, [])
  | .onward, .worker i, .moreEvents => some (.event, sbTimerStart (.timer i))
  | .quit logs, .worker _, .moreEvents => some (.leaving, if logs then logText cfg logInfo else [])
  | .onward, .worker i, .event => some (.moreEvents, sbTimerStop (.timer i))
  | .onward, .worker _, .leaving => some (.ended, [])
  | .log priority, .worker _, pc => if pc = .ended then none else some (pc, logText cfg priority)
  | .onward, .report, .created => some (.waiting, logText cfg logDebug)
  | .quit _, .report, .created => some (.ended, [])
  | .onward, .report, .sleeping => some (.sleeping, sbHistogramGetPctIntermediate)
  | .onward, .checkpoints, .created => some (.waiting, logText cfg logDebug)
  | .quit _, .checkpoints, .created => some (.ended, [])
  | .onward, .checkpoints, .sleeping => some (.reporting, checkpoint n)
  | .quit _, .checkpoints, .sleeping => some (.ended, [])
  | .report running, .checkpoints, .reporting =>
      some (.sleeping, sbReportCumulative cfg s.forced running)
  | .quit logs, .eventgen, .generating =>
      some (.leaving, if logs then logText cfg logFatal else [])
  | .onward, .eventgen, .leaving => some (.ended, [])
  | _, _, _ => none

/-- At the end of its sections. -/
def done (s : State n) (t : Thread n) : Bool :=
  match s.locks.place t with
  | .outside [] => true
  | _ => false

inductive Action (n : Nat) where
  | move (m : Move (Thread n))
  | advance (t : Thread n) (choice : Choice n)
  | barrier
  | deliver (t : Thread n) (running : Fin n → Bool)

/-- `alarm` in the main thread. -/
def alarm (s : State n) : Thread n → Pc → Bool
  | .main, .arming => true
  | .main, .stopping => false
  | _, _ => s.armed

def advance (cfg : Globals) (s : State n) (t : Thread n) (choice : Choice n) : Option (State n) :=
  if done s t then
    if s.pc t = .handling then some { s with exited := true }
    else (next cfg s choice t (s.pc t)).map fun there =>
      { s with
        locks := goto s.locks t (.outside there.2)
        pc := Function.update s.pc t there.1
        armed := alarm s t (s.pc t) }
  else none

/-- The report threads that have been created. -/
def reporters (cfg : Globals) : List (Thread n) :=
  (if cfg.reports then [.report] else []) ++ if cfg.checkpoints then [.checkpoints] else []

/-- `report_barrier`: the main thread and the report threads go on together. -/
def passBarrier (cfg : Globals) (s : State n) : Option (State n) :=
  if s.pc .main = .reportBarrier ∧ done s .main ∧
      ∀ t ∈ reporters cfg, s.pc t = .waiting ∧ done s t then
    some { s with pc := fun t =>
      if t = .main then .joining else if t ∈ reporters cfg then .sleeping else s.pc t }
  else none

def deliver (cfg : Globals) (s : State n) (t : Thread n) (running : Fin n → Bool) :
    Option (State n) :=
  if s.armed ∧ s.pc t ≠ .ended then
    some { s with
      locks := interrupt s.locks t (sigalrmForcedShutdownHandler cfg running)
      pc := Function.update s.pc t .handling
      armed := false
      forced := true }
  else none

def step (cfg : Globals) (s : State n) (a : Action n) : Option (State n) :=
  if s.exited then none
  else
    match a with
    | .move m => (CriticalSections.step s.locks m).map fun locks => { s with locks := locks }
    | .advance t choice => advance cfg s t choice
    | .barrier => passBarrier cfg s
    | .deliver t running => deliver cfg s t running

/-- The threads are created, the workers and the event generator behind their barrier. -/
def start (cfg : Globals) (n : Nat) : State n :=
  { locks := { place := fun _ => .outside [], abandoned := fun _ => none, owner := fun _ => none }
    pc := fun
      | .main => .arming
      | .worker _ => .moreEvents
      | .report => if cfg.reports then .created else .ended
      | .checkpoints => if cfg.checkpoints then .created else .ended
      | .eventgen => if cfg.rate then .generating else .ended
    armed := false
    forced := false
    exited := false }
end Threads

/-- The interrupted thread owns no lock that the handler takes. -/
def NoneHeld (cfg : Globals) (s : State n) : Action n → Prop
  | .deliver t running =>
      ∀ each ∈ sigalrmForcedShutdownHandler cfg running, s.locks.owner each.lock ≠ some t
  | _ => True

/-- A handler that has begun can get to `exit(2)`. -/
def HandlerExits (cfg : Globals) (s : State n) : Prop :=
  ∀ t, s.pc t = .handling → ∃ u, Reaches (step cfg) s u ∧ u.exited = true

/-- The signal finds its thread at a place between two sections. -/
def InterruptsOutside (s : State n) : Action n → Prop
  | .deliver t _ => (s.locks.place t).lock = none
  | _ => True

/-! What the sections of the functions do to the locks. -/
section Sections
variable (cfg : Globals) (forced : Bool)

/-- A timer of the per-thread copies is stopped in a forced shutdown only. -/
def NotCopy (lock : Lock n) : Prop := ∀ i, lock ≠ .timerCopy i

def Mild (each : Section (Lock n)) : Prop :=
  (∀ lock, each.clears = some lock → ¬ NotCopy lock) ∧ (forced = false → NotCopy each.lock)

def Tame (code : Code n) : Prop := ∀ each ∈ code, Mild forced each

theorem tame_append (first second : Code n) :
    Tame forced (first ++ second) ↔ Tame forced first ∧ Tame forced second :=
  List.forall_mem_append

theorem tame_nil : Tame forced ([] : Code n) := fun _ member => absurd member List.not_mem_nil

theorem tame_single (lock : Lock n) (ordinary : NotCopy lock) :
    Tame forced [(⟨lock, none⟩ : Section (Lock n))] := by
  intro each member
  obtain rfl := List.mem_singleton.mp member
  exact ⟨fun _ no => (nomatch no), fun _ => ordinary⟩

theorem tame_log (priority : UInt8) : Tame forced (logText cfg priority : Code n) := by
  unfold logText
  split
  · exact tame_nil forced
  · exact tame_single forced .text fun _ => nofun

theorem tame_lines (priority : UInt8) (count : Nat) :
    Tame forced (logLines cfg priority count : Code n) := by
  intro each member
  obtain ⟨line, copied, inside⟩ := List.mem_flatten.mp member
  obtain ⟨_, rfl⟩ := List.mem_replicate.mp copied
  exact tame_log cfg forced priority each inside

theorem tame_checkpoint : Tame forced (checkpoint n) := by
  refine (tame_append forced _ _).mpr ⟨tame_single forced .histogram fun _ => nofun, ?_⟩
  intro each member
  obtain ⟨i, _, inside⟩ := List.mem_flatMap.mp member
  obtain rfl := List.mem_singleton.mp inside
  refine ⟨fun lock cleared keep => ?_, fun _ _ => nofun⟩
  obtain rfl := Option.some.inj cleared
  exact keep i rfl

theorem tame_stops : Tame forced
    (sbTimerStop .execTimer ++ sbTimerStop .intermediateTimer ++ sbTimerStop .checkpointTimer :
      Code n) := by
  have each : ∀ lock : Lock n, NotCopy lock → Tame forced (sbTimerStop lock) :=
    fun lock ordinary => tame_single forced lock ordinary
  simp only [tame_append]
  exact ⟨⟨each _ fun _ => nofun, each _ fun _ => nofun⟩,
    each _ fun _ => nofun⟩

theorem tame_report (running : Fin n → Bool) :
    Tame forced (sbReportCumulative cfg forced running) := by
  simp only [sbReportCumulative, tame_append]
  refine ⟨⟨⟨?_, tame_lines cfg forced _ _⟩, tame_lines cfg forced _ _⟩, ?_⟩
  · intro each member
    obtain ⟨i, listed, inside⟩ := List.mem_flatMap.mp member
    obtain rfl := List.mem_singleton.mp inside
    refine ⟨fun _ no => (nomatch no), fun calm => ?_⟩
    rw [calm] at listed
    exact absurd listed List.not_mem_nil
  · split
    · exact (tame_append forced _ _).mpr ⟨tame_lines cfg forced _ _, tame_lines cfg forced _ _⟩
    · exact tame_nil forced

theorem tame_handler (running : Fin n → Bool) :
    Tame true (sigalrmForcedShutdownHandler cfg running) := by
  unfold sigalrmForcedShutdownHandler
  exact (tame_append true _ _).mpr ⟨(tame_append true _ _).mpr ⟨(tame_append true _ _).mpr
    ⟨tame_stops true, tame_log cfg true _⟩, tame_checkpoint true⟩, tame_report cfg true running⟩

theorem tame_if (condition : Bool) (code : Code n) (tame : Tame forced code) :
    Tame forced (if condition then code else []) := by
  cases condition with
  | true => exact tame
  | false => exact tame_nil forced

/-- The handler takes every lock that a thread may hold before. -/
theorem handler_takes (running : Fin n → Bool) (lock : Lock n) (ordinary : NotCopy lock) :
    ∃ each ∈ sigalrmForcedShutdownHandler cfg running, each.lock = lock := by
  have stops : ∀ each ∈ (sbTimerStop .execTimer ++ sbTimerStop .intermediateTimer ++
      sbTimerStop .checkpointTimer : Code n), each ∈ sigalrmForcedShutdownHandler cfg running :=
    fun _ member => List.mem_append_left _ (List.mem_append_left _ (List.mem_append_left _ member))
  have aggregated : ∀ each ∈ checkpoint n, each ∈ sigalrmForcedShutdownHandler cfg running :=
    fun _ member => List.mem_append_left _ (List.mem_append_right _ member)
  cases lock with
  | execTimer => exact ⟨⟨.execTimer, none⟩, stops _ (by simp [sbTimerStop]), rfl⟩
  | intermediateTimer => exact ⟨⟨.intermediateTimer, none⟩, stops _ (by simp [sbTimerStop]), rfl⟩
  | checkpointTimer => exact ⟨⟨.checkpointTimer, none⟩, stops _ (by simp [sbTimerStop]), rfl⟩
  | timer i =>
      have copied : (⟨.timer i, some (.timerCopy i)⟩ : Section (Lock n)) ∈ sbTimerCheckpoint i :=
        List.mem_singleton_self _
      have member : (⟨.timer i, some (.timerCopy i)⟩ : Section (Lock n)) ∈ checkpoint n :=
        List.mem_append_right _ (List.mem_flatMap.mpr ⟨i, List.mem_finRange i, copied⟩)
      exact ⟨_, aggregated _ member, rfl⟩
  | timerCopy i => exact absurd rfl (ordinary i)
  | histogram => exact ⟨⟨.histogram, none⟩, aggregated _ List.mem_cons_self, rfl⟩
  | text =>
      -- a message of priority 0 passes every level
      have logged : (logText cfg logFatal : Code n) = [⟨.text, none⟩] :=
        if_neg (UInt8.not_lt.mpr UInt8.zero_le)
      have member : (⟨.text, none⟩ : Section (Lock n)) ∈ logText cfg logFatal := by
        rw [logged]
        exact List.mem_singleton_self _
      exact ⟨_, List.mem_append_left _ (List.mem_append_left _ (List.mem_append_right _ member)),
        rfl⟩

theorem next_tame (s : State n) (choice : Choice n) (t : Thread n) (pc there : Pc) (code : Code n)
    (taken : next cfg s choice t pc = some (there, code)) : Tame s.forced code := by
  have log : ∀ priority, Tame s.forced (logText cfg priority : Code n) := tame_log cfg s.forced
  unfold next at taken
  split at taken
  case h_3 =>
    obtain ⟨_, taken⟩ := Option.ite_none_right_eq_some.mp taken
    obtain ⟨_, rfl⟩ := Prod.mk.inj (Option.some.inj taken)
    exact tame_stops s.forced
  case h_9 priority i =>
    obtain ⟨_, taken⟩ := Option.ite_none_left_eq_some.mp taken
    obtain ⟨_, rfl⟩ := Prod.mk.inj (Option.some.inj taken)
    exact log priority
  case h_20 => cases taken
  all_goals obtain ⟨_, rfl⟩ := Prod.mk.inj (Option.some.inj taken)
  case h_1 | h_6 | h_18 => exact tame_if s.forced _ _ (log _)
  case h_2 => exact tame_if s.forced _ _ (tame_checkpoint s.forced)
  case h_5 | h_7 => exact tame_single s.forced (.timer _) fun _ => nofun
  case h_10 | h_13 => exact log logDebug
  case h_12 => exact tame_single s.forced .histogram fun _ => nofun
  case h_15 => exact tame_checkpoint s.forced
  case h_17 => exact tame_report cfg s.forced _
  all_goals exact tame_nil s.forced

theorem next_place (s : State n) (choice : Choice n) (t : Thread n) (pc there : Pc) (code : Code n)
    (taken : next cfg s choice t pc = some (there, code)) :
    (pc ≠ .handling → there ≠ .handling) ∧ (t = .main → there ≠ .arming) := by
  unfold next at taken
  split at taken
  case h_3 =>
    obtain ⟨_, taken⟩ := Option.ite_none_right_eq_some.mp taken
    obtain ⟨rfl, _⟩ := Prod.mk.inj (Option.some.inj taken)
    exact ⟨fun _ => nofun, fun _ => nofun⟩
  case h_9 =>
    obtain ⟨_, taken⟩ := Option.ite_none_left_eq_some.mp taken
    obtain ⟨rfl, _⟩ := Prod.mk.inj (Option.some.inj taken)
    exact ⟨id, nofun⟩
  case h_20 => cases taken
  all_goals
    obtain ⟨rfl, _⟩ := Prod.mk.inj (Option.some.inj taken)
    exact ⟨fun _ => nofun, fun _ => nofun⟩
end Sections

/-! Along a run. -/
section Runs
variable {cfg : Globals} {s u : State n}

/-- What holds whether or not a thread has been interrupted inside a section. -/
structure Sound (s : State n) : Prop where
  owners : OwnersHold s.locks
  holders : HoldersOwn NotCopy s.locks
  calm : s.forced = false → ∀ t, s.locks.abandoned t = none ∧ s.pc t ≠ .handling ∧
    ∀ each ∈ (s.locks.place t).sections, NotCopy each.lock
  armed : s.armed = true → s.forced = false
  early : s.pc .main = .arming → s.armed = false ∧ s.forced = false

theorem start_sound (cfg : Globals) (n : Nat) : Sound (start cfg n) := by
  refine ⟨fun lock t no => (nomatch no), ⟨fun t lock _ holds => ?_, fun t lock _ no => (nomatch no),
    fun t each member => absurd member List.not_mem_nil⟩, fun _ t => ⟨rfl, ?_, fun each member =>
    absurd member List.not_mem_nil⟩, fun no => (nomatch no), fun _ => ⟨rfl, rfl⟩⟩
  · rcases holds with no | no <;> cases no
  · cases t <;> simp only [start] <;> try split
    all_goals exact nofun

theorem done_place (t : Thread n) (ended : done s t = true) : s.locks.place t = .outside [] := by
  unfold done at ended
  split at ended
  · assumption
  · cases ended

/-- The sections a thread goes through when it goes on. -/
theorem load_sound (t : Thread n) (there : Pc) (code : Code n) (sound : Sound s)
    (ended : done s t = true) (tame : Tame s.forced code) (armed : Bool)
    (place : s.forced = false → there ≠ .handling) (main : t = .main → there ≠ .arming)
    (alarmed : armed = true → s.forced = false) (same : t ≠ .main → armed = s.armed) :
    Sound { s with
      locks := goto s.locks t (.outside code)
      pc := Function.update s.pc t there
      armed := armed } := by
  refine ⟨load_owners t code sound.owners (done_place t ended),
    load_holders t code sound.holders fun each member => (tame each member).1, ?_, alarmed, ?_⟩
  · intro calm other
    obtain ⟨kept, pc, sections⟩ := sound.calm calm other
    by_cases this : other = t
    · subst this
      refine ⟨kept, by simpa using place calm, fun each member => ?_⟩
      rw [goto_place] at member
      exact (tame each member).2 calm
    · refine ⟨kept, by simpa [this] using pc, fun each member => ?_⟩
      rw [goto_other _ t other _ this] at member
      exact sections each member
  · intro arming
    by_cases this : t = .main
    · subst this
      exact absurd (by simpa using arming) (main rfl)
    · have early := sound.early (by simpa [Ne.symm this] using arming)
      exact ⟨(same this).trans early.1, early.2⟩

theorem move_sound (m : Move (Thread n)) (sound : Sound s)
    (locks : CriticalSections.State (Thread n) (Lock n))
    (moved : CriticalSections.step s.locks m = some locks) : Sound { s with locks := locks } := by
  refine ⟨step_owners m sound.owners moved, step_holders m sound.holders moved, ?_, sound.armed,
    sound.early⟩
  intro calm t
  obtain ⟨kept, pc, sections⟩ := sound.calm calm t
  have same := congrFun (step_abandoned m moved) t
  exact ⟨same.trans kept, pc, fun each member => sections each (step_sections m moved t member)⟩

theorem advance_sound (t : Thread n) (choice : Choice n) (sound : Sound s)
    (taken : advance cfg s t choice = some u) : Sound u := by
  obtain ⟨ended, taken⟩ := Option.ite_none_right_eq_some.mp taken
  by_cases handling : s.pc t = .handling
  · rw [if_pos handling] at taken
    obtain rfl := Option.some.inj taken
    exact ⟨sound.owners, sound.holders, sound.calm, sound.armed, sound.early⟩
  · rw [if_neg handling] at taken
    obtain ⟨⟨there, code⟩, chosen, rfl⟩ := Option.map_eq_some_iff.mp taken
    obtain ⟨place, main⟩ := next_place cfg s choice t _ there code chosen
    refine load_sound t there code sound ended (next_tame cfg s choice t _ there code chosen)
      (alarm s t (s.pc t)) (fun _ => place handling) main ?_ ?_
    · intro armed
      unfold alarm at armed
      split at armed
      · rename_i arming
        exact (sound.early arming).2
      · cases armed
      · exact sound.armed armed
    · intro other
      unfold alarm
      split
      · exact absurd rfl other
      · exact absurd rfl other
      · rfl

theorem barrier_sound (sound : Sound s) (taken : passBarrier cfg s = some u) : Sound u := by
  obtain ⟨_, taken⟩ := Option.ite_none_right_eq_some.mp taken
  obtain rfl := Option.some.inj taken
  refine ⟨sound.owners, sound.holders, ?_, sound.armed, fun no => ?_⟩
  · intro calm t
    obtain ⟨kept, pc, sections⟩ := sound.calm calm t
    refine ⟨kept, ?_, sections⟩
    simp only
    split_ifs
    · exact nofun
    · exact nofun
    · exact pc
  · cases no

theorem deliver_sound (t : Thread n) (running : Fin n → Bool) (sound : Sound s)
    (taken : deliver cfg s t running = some u) : Sound u := by
  obtain ⟨⟨armed, _⟩, taken⟩ := Option.ite_none_right_eq_some.mp taken
  obtain rfl := Option.some.inj taken
  obtain ⟨first, _⟩ := sound.calm (sound.armed armed) t
  refine ⟨interrupt_owners t _ sound.owners first,
    interrupt_holders t _ sound.holders first fun each member => (tame_handler cfg running each
      member).1, fun no => (nomatch no), fun no => (nomatch no), fun arming => ?_⟩
  by_cases this : t = .main
  · subst this
    simp at arming
  · have early := sound.early (by simpa [Ne.symm this] using arming)
    cases armed.symm.trans early.1

theorem step_sound (a : Action n) (sound : Sound s) (taken : step cfg s a = some u) : Sound u := by
  obtain ⟨_, taken⟩ := Option.ite_none_left_eq_some.mp taken
  cases a with
  | move m =>
      obtain ⟨locks, moved, rfl⟩ := Option.map_eq_some_iff.mp taken
      exact move_sound m sound locks moved
  | advance t choice => exact advance_sound t choice sound taken
  | barrier => exact barrier_sound sound taken
  | deliver t running => exact deliver_sound t running sound taken

/-- Before the signal no thread is inside a section of a copy. -/
theorem inside_ordinary (t : Thread n) (lock : Lock n) (sound : Sound s) (calm : s.forced = false)
    (inside : (s.locks.place t).lock = some lock) : NotCopy lock := by
  obtain ⟨_, _, sections⟩ := sound.calm calm t
  cases here : s.locks.place t with
  | outside code =>
      rw [here] at inside
      cases inside
  | inside current rest =>
      rw [here] at inside sections
      obtain rfl := Option.some.inj inside
      exact sections current List.mem_cons_self

/-- Before the signal, a thread holds no lock of the handler exactly between its sections. -/
theorem none_held_iff (t : Thread n) (running : Fin n → Bool) (sound : Sound s)
    (calm : s.forced = false) :
    (∀ each ∈ sigalrmForcedShutdownHandler cfg running, s.locks.owner each.lock ≠ some t) ↔
      (s.locks.place t).lock = none := by
  constructor
  · intro free
    cases here : (s.locks.place t).lock with
    | none => rfl
    | some lock =>
        have ordinary := inside_ordinary t lock sound calm here
        obtain ⟨each, member, same⟩ := handler_takes cfg running lock ordinary
        have owned := sound.holders.own t lock ordinary (Or.inl here)
        rw [← same] at owned
        exact absurd owned (free each member)
  · intro outside each _ owned
    rcases sound.owners each.lock t owned with inside | abandoned
    · cases outside.symm.trans inside
    · cases (sound.calm calm t).1.symm.trans abandoned

theorem step_none_held_iff (a : Action n) (sound : Sound s) (taken : step cfg s a = some u) :
    NoneHeld cfg s a ↔ InterruptsOutside s a := by
  obtain ⟨_, taken⟩ := Option.ite_none_left_eq_some.mp taken
  cases a with
  | deliver t running =>
      obtain ⟨⟨armed, _⟩, _⟩ := Option.ite_none_right_eq_some.mp taken
      exact none_held_iff t running sound (sound.armed armed)
  | move | advance | barrier => exact Iff.rfl

/-- Moves between sections leave everything else alone. -/
theorem run_moves (moves : List (Move (Thread n)))
    (locks : CriticalSections.State (Thread n) (Lock n)) (going : s.exited = false)
    (moved : run CriticalSections.step s.locks moves = some locks) :
    run (step cfg) s (moves.map .move) = some { s with locks := locks } := by
  induction moves generalizing s with
  | nil =>
      obtain rfl := Option.some.inj moved
      rfl
  | cons m rest ih =>
      obtain ⟨next, taken, moved⟩ := Option.bind_eq_some_iff.mp moved
      have here : step cfg s (.move m) = some { s with locks := next } := by
        simp [step, going, taken]
      rw [List.map_cons, run, here]
      exact ih going moved

def threads (n : Nat) : List (Thread n) :=
  [.main, .report, .checkpoints, .eventgen] ++ (List.finRange n).map .worker

theorem every_thread (t : Thread n) : t ∈ threads n := by
  cases t <;> simp [threads]

/-- A handler on top of code that was outside its sections can get to its end. -/
theorem handler_exits (sound : Sound s) (kept : ∀ t, s.locks.abandoned t = none) :
    HandlerExits cfg s := by
  intro t handling
  cases going : s.exited with
  | true => exact ⟨s, ⟨[], rfl⟩, going⟩
  | false =>
      obtain ⟨moves, locks, moved, ended⟩ :=
        finishes (threads n) every_thread t s.locks sound.owners kept
      have exits : step cfg { s with locks := locks } (.advance t .onward) =
          some { s with locks := locks, exited := true } := by
        simp [step, going, advance, done, ended, handling]
      refine ⟨{ s with locks := locks, exited := true }, ⟨moves.map .move ++ [.advance t .onward],
        ?_⟩, rfl⟩
      rw [run_append, run_moves moves locks going moved, Option.bind_some, run, exits]
      rfl

theorem step_undisturbed (a : Action n) (kept : ∀ t, s.locks.abandoned t = none)
    (outside : InterruptsOutside s a) (taken : step cfg s a = some u) :
    ∀ t, u.locks.abandoned t = none := by
  obtain ⟨_, taken⟩ := Option.ite_none_left_eq_some.mp taken
  cases a with
  | move m =>
      obtain ⟨locks, moved, rfl⟩ := Option.map_eq_some_iff.mp taken
      exact fun t => (congrFun (step_abandoned m moved) t).trans (kept t)
  | advance t choice =>
      obtain ⟨_, taken⟩ := Option.ite_none_right_eq_some.mp taken
      split at taken
      · obtain rfl := Option.some.inj taken
        exact kept
      · obtain ⟨there, _, rfl⟩ := Option.map_eq_some_iff.mp taken
        exact kept
  | barrier =>
      obtain ⟨_, taken⟩ := Option.ite_none_right_eq_some.mp taken
      obtain rfl := Option.some.inj taken
      exact kept
  | deliver t running =>
      obtain ⟨_, taken⟩ := Option.ite_none_right_eq_some.mp taken
      obtain rfl := Option.some.inj taken
      intro other
      -- the thread was between two sections when the signal came
      by_cases this : other = t
      · subst this
        have free : (s.locks.place other).lock = none := outside
        simpa [interrupt] using free
      · simpa [interrupt, this] using kept other

/-- The signal finds no lock of its handler with the thread it interrupts, and the handler
can always get to its end, exactly along the schedules in which the signal comes between
two sections of the thread. -/
theorem handler_exits_iff (cfg : Globals) (n : Nat) (schedule : List (Action n)) :
    (Guarded (step cfg) (NoneHeld cfg) (start cfg n) schedule ∧
        Always (step cfg) (HandlerExits cfg) (start cfg n) schedule) ↔
      Guarded (step cfg) InterruptsOutside (start cfg n) schedule := by
  have sound := start_sound cfg n
  have same : Guarded (step cfg) (NoneHeld cfg) (start cfg n) schedule ↔
      Guarded (step cfg) InterruptsOutside (start cfg n) schedule :=
    guarded_congr (fun _ a _ sound taken => step_sound a sound taken)
      (fun _ a _ sound taken => step_none_held_iff a sound taken) _ schedule sound
  refine ⟨fun both => same.mp both.1, fun outside => ⟨same.mpr outside, ?_⟩⟩
  have kept : Always (step cfg) (fun s => Sound s ∧ ∀ t, s.locks.abandoned t = none)
      (start cfg n) schedule :=
    guarded_keeps (fun _ a _ both outside taken =>
      ⟨step_sound a both.1 taken, step_undisturbed a both.2 outside taken⟩) _ schedule
      ⟨sound, fun _ => rfl⟩ outside
  exact always_mono (fun _ both => handler_exits both.1 both.2) _ schedule kept

/-- The handler waits for a lock that its own thread has abandoned. -/
structure Stuck (t : Thread n) (lock : Lock n) (s : State n) : Prop where
  sound : Sound s
  blocked : Blocked s.locks t lock
  only : ∀ other, s.pc other = .handling → other = t
  disarmed : s.armed = false ∧ s.pc .main ≠ .arming
  going : s.exited = false

theorem blocked_not_done (t : Thread n) (lock : Lock n) (blocked : Blocked s.locks t lock) :
    done s t ≠ true := by
  intro ended
  obtain ⟨_, next, ahead, _⟩ := blocked
  rw [done_place t ended] at ahead
  exact absurd ahead List.not_mem_nil

theorem step_stuck (t : Thread n) (lock : Lock n) (ordinary : NotCopy lock) (a : Action n)
    (stuck : Stuck t lock s) (taken : step cfg s a = some u) : Stuck t lock u := by
  have sound := step_sound a stuck.sound taken
  obtain ⟨_, taken⟩ := Option.ite_none_left_eq_some.mp taken
  cases a with
  | move m =>
      obtain ⟨locks, moved, rfl⟩ := Option.map_eq_some_iff.mp taken
      have blocked := step_blocked m t lock stuck.sound.holders ordinary stuck.blocked moved
      exact ⟨sound, blocked, stuck.only, stuck.disarmed, stuck.going⟩
  | advance other choice =>
      obtain ⟨ended, taken⟩ := Option.ite_none_right_eq_some.mp taken
      -- the stuck thread has not ended a section, so another one goes on
      have apart : t ≠ other := by
        rintro rfl
        exact blocked_not_done t lock stuck.blocked ended
      have handling : s.pc other ≠ .handling := fun here => apart (stuck.only other here).symm
      rw [if_neg handling] at taken
      obtain ⟨⟨there, code⟩, chosen, rfl⟩ := Option.map_eq_some_iff.mp taken
      obtain ⟨place, main⟩ := next_place cfg s choice other _ there code chosen
      refine ⟨sound, ⟨stuck.blocked.1, ?_⟩, fun third here => ?_, ⟨?_, ?_⟩, stuck.going⟩
      · simpa only [goto_other s.locks other t _ apart] using stuck.blocked.2
      · by_cases this : third = other
        · subst this
          exact absurd (by simpa using here) (place handling)
        · exact stuck.only third (by simpa [this] using here)
      · simp only [alarm]
        split
        · rename_i arming
          exact absurd arming stuck.disarmed.2
        · rfl
        · exact stuck.disarmed.1
      · by_cases this : other = .main
        · subst this
          simpa using main rfl
        · simpa [Ne.symm this] using stuck.disarmed.2
  | barrier =>
      obtain ⟨_, taken⟩ := Option.ite_none_right_eq_some.mp taken
      obtain rfl := Option.some.inj taken
      refine ⟨sound, stuck.blocked, fun other here => ?_, ⟨stuck.disarmed.1, nofun⟩, stuck.going⟩
      simp only at here
      split_ifs at here
      exact stuck.only other here
  | deliver other running =>
      obtain ⟨⟨armed, _⟩, _⟩ := Option.ite_none_right_eq_some.mp taken
      cases armed.symm.trans stuck.disarmed.1

/-- The spinlocks of the timers and the mutex of the logger block a thread that takes them
twice. The read-write lock of the histogram may give it an error instead. -/
def Lock.Blocks (lock : Lock n) : Prop := lock ≠ .histogram

/-- A signal inside a section of a lock that blocks never ends the process. -/
theorem inside_never_exits (t : Thread n) (running : Fin n → Bool) (lock : Lock n)
    (_blocks : lock.Blocks) (sound : Sound s) (inside : (s.locks.place t).lock = some lock)
    (taken : step cfg s (.deliver t running) = some u) (schedule : List (Action n)) :
    Always (step cfg) (fun v => v.exited = false) u schedule := by
  have after := step_sound _ sound taken
  obtain ⟨going, delivered⟩ := Option.ite_none_left_eq_some.mp taken
  obtain ⟨⟨armed, _⟩, delivered⟩ := Option.ite_none_right_eq_some.mp delivered
  have calm := sound.calm (sound.armed armed)
  have ordinary := inside_ordinary t lock sound (sound.armed armed) inside
  obtain ⟨each, member, same⟩ := handler_takes cfg running lock ordinary
  have early : s.pc .main ≠ .arming := fun arming => by
    cases armed.symm.trans (sound.early arming).1
  have stuck : Stuck t lock u := by
    obtain rfl := Option.some.inj delivered
    refine ⟨after, ⟨?_, each, ?_, same⟩, fun other here => ?_, ⟨rfl, ?_⟩, by simpa using going⟩
    · simpa [interrupt] using inside
    · simpa [interrupt, Place.ahead] using member
    · by_contra this
      exact (calm other).2.1 (by simpa [this] using here)
    · by_cases this : t = .main
      · subst this
        simp
      · simpa [Ne.symm this] using early
  exact always_mono (fun _ here => here.going) _ schedule
    (invariant_keeps (fun _ a _ here taken => step_stuck t lock ordinary a here taken) _ schedule
      stuck)

theorem reached_sound (cfg : Globals) (schedule : List (Action n))
    (reached : run (step cfg) (start cfg n) schedule = some s) : Sound s :=
  good_of_reaches (fun schedule => invariant_keeps
    (fun _ a _ sound taken => step_sound a sound taken) _ schedule (start_sound cfg n))
    ⟨schedule, reached⟩

def quiet : Globals := ⟨false, false, false, false, false, logNotice⟩

def only : Thread 1 := .worker ⟨0, Nat.zero_lt_one⟩

/-- The alarm is set; SIGALRM comes when the worker has ended its event and is in
`sb_timer_stop`. -/
def interrupted : List (Action 1) :=
  [.advance .main .onward, .advance only .onward, .move (.enter only), .move (.leave only),
    .advance only .onward, .move (.enter only), .deliver only fun _ => false]

theorem interrupted_never_exits :
    ¬ Guarded (step quiet) (NoneHeld quiet) (start quiet 1) interrupted ∧
      ∃ u, run (step quiet) (start quiet 1) interrupted = some u ∧ u.pc only = .handling ∧
        ∀ schedule, Always (step quiet) (fun v => v.exited = false) u schedule := by
  obtain ⟨s, u, entered, inside, taken, handling⟩ : ∃ s u,
      run (step quiet) (start quiet 1) (interrupted.take 6) = some s ∧
        (s.locks.place only).lock = some (.timer 0) ∧
        step quiet s (.deliver only fun _ => false) = some u ∧ u.pc only = .handling :=
    ⟨_, _, rfl, rfl, rfl, rfl⟩
  have sound : Sound s := reached_sound quiet _ entered
  refine ⟨fun guarded => ?_, u, ?_, handling, inside_never_exits only _ (.timer 0)
    (by unfold Lock.Blocks; decide) sound inside taken⟩
  · obtain ⟨each, member, same⟩ :=
      handler_takes quiet (fun _ => false) (.timer 0 : Lock 1) fun _ => nofun
    have started := ((guarded _ rfl).2 _ rfl).2 _ rfl
    have stopping := ((started.2 _ rfl).2 _ rfl).2 _ rfl
    exact (stopping.2 _ rfl).1 each member (by rw [same]; rfl)
  · have whole : interrupted = interrupted.take 6 ++ [.deliver only fun _ => false] := rfl
    rw [whole, run_append, entered, Option.bind_some, run, taken]
    rfl
end Runs
end PteSysbench.ForcedShutdown
