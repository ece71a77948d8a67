import PteSysbench.FileRequests
import Mathlib.Data.Fintype.Basic
import Mathlib.Tactic.Positivity

/-!
`--file-test-mode=rndrw`: `file_get_rnd_request` reads the counters of the thread to
choose between a read and a write, `file_execute_event` updates them after the I/O.
The threads share the generator and run in any order. The `uint64_t` counters are exact
numbers here, as the arithmetic of the ratio is.
-/

namespace PteSysbench.ReadWriteMix

open ActionSystem FileRequests

/-! `file_execute_event`, with the answers of the file system. -/
section Execution

/-- The `sb_counters` of a thread that the file test uses. -/
structure Counters where
  reads : Nat
  writes : Nat
  other : Nat
  bytesRead : Int
  bytesWritten : Int
  deriving DecidableEq

/-- `synced`: whether `file_do_fsync` gave 0; `valid`: whether `file_validate_buffer` did. -/
structure IoAnswers where
  fd : Int
  pwrite : Int
  pread : Int
  synced : Bool
  valid : Bool

def fileFsync (io : IoAnswers) (counters : Counters) : Except String Counters :=
  if io.synced then .ok { counters with other := counters.other + 1 }
  else .error ("Failed to fsync file! file: " ++ toString io.fd)

def countWrite (cfg : FileConfig) (request : FileRequest) (counters : Counters) : Counters :=
  if cfg.ioMode ≠ .async then
    { counters with
      writes := counters.writes + 1
      bytesWritten := counters.bytesWritten + request.size }
  else counters

def countRead (cfg : FileConfig) (request : FileRequest) (counters : Counters) : Counters :=
  if cfg.ioMode ≠ .async then
    { counters with
      reads := counters.reads + 1
      bytesRead := counters.bytesRead + request.size }
  else counters

def executeWrite (cfg : FileConfig) (io : IoAnswers) (request : FileRequest)
    (counters : Counters) : Except String Counters :=
  if io.pwrite ≠ request.size then
    .error ("Failed to write file! file: " ++ toString io.fd ++ " pos: " ++
      toString request.pos)
  else if cfg.fsyncAll then (fileFsync io counters).map (countWrite cfg request)
  else .ok (countWrite cfg request counters)

def executeRead (cfg : FileConfig) (io : IoAnswers) (request : FileRequest)
    (counters : Counters) : Except String Counters :=
  if io.pread ≠ request.size then
    .error ("Failed to read file! file: " ++ toString io.fd ++ " pos: " ++ toString request.pos)
  else if cfg.validate && !io.valid then
    .error ("Validation failed on file " ++ toString request.fileId ++ ", block offset " ++
      toString request.pos ++ ", exiting...")
  else .ok (countRead cfg request counters)

def fileExecuteEvent (cfg : FileConfig) (io : IoAnswers) (request : FileRequest)
    (counters : Counters) : Except String Counters := do
  let _ ← requestTarget cfg request
  match request.operation with
  | .null => .error "Execute of NULL request called !, aborting"
  | .write => executeWrite cfg io request counters
  | .read => executeRead cfg io request counters
  | .fsync => if cfg.fsyncAll then .ok counters else fileFsync io counters

theorem file_fsync_counts (io : IoAnswers) (counters after : Counters)
    (done : fileFsync io counters = .ok after) :
    after.reads = counters.reads ∧ after.writes = counters.writes := by
  unfold fileFsync at done
  split at done
  · cases done
    exact ⟨rfl, rfl⟩
  · cases done

/-- What a successful event of a synchronous run counts. -/
def Counted (operation : FileOp) (before after : Counters) : Prop :=
  match operation with
  | .read => after.reads = before.reads + 1 ∧ after.writes = before.writes
  | .write => after.reads = before.reads ∧ after.writes = before.writes + 1
  | _ => after.reads = before.reads ∧ after.writes = before.writes

variable {cfg : FileConfig} {io : IoAnswers} {request : FileRequest} {before after : Counters}

theorem write_counted (sync : cfg.ioMode = .sync)
    (done : executeWrite cfg io request before = .ok after) :
    after.reads = before.reads ∧ after.writes = before.writes + 1 := by
  -- with synchronous I/O a write counts as soon as it returns
  have counts : ∀ counters, countWrite cfg request counters =
      { counters with
        writes := counters.writes + 1
        bytesWritten := counters.bytesWritten + request.size } := by
    intro counters
    rw [countWrite, sync, if_pos (by decide)]
  unfold executeWrite at done
  split at done
  · cases done
  · split at done
    · cases synced : fileFsync io before with
      | error text =>
          rw [synced] at done
          cases done
      | ok middle =>
          obtain ⟨reads, writes⟩ := file_fsync_counts io before middle synced
          rw [synced, Except.map, counts] at done
          cases done
          exact ⟨reads, congrArg (· + 1) writes⟩
    · rw [counts] at done
      cases done
      exact ⟨rfl, rfl⟩

theorem read_counted (sync : cfg.ioMode = .sync)
    (done : executeRead cfg io request before = .ok after) :
    after.reads = before.reads + 1 ∧ after.writes = before.writes := by
  unfold executeRead at done
  split at done
  · cases done
  · split at done
    · cases done
    · rw [countRead, sync, if_pos (by decide)] at done
      cases done
      exact ⟨rfl, rfl⟩

theorem execute_counted (sync : cfg.ioMode = .sync)
    (done : fileExecuteEvent cfg io request before = .ok after) :
    Counted request.operation before after := by
  obtain ⟨_, _, done⟩ := bind_ok _ _ _ done
  cases operation : request.operation with
  | null =>
      rw [operation] at done
      cases done
  | read =>
      rw [operation] at done
      exact read_counted sync done
  | write =>
      rw [operation] at done
      exact write_counted sync done
  | fsync =>
      simp only [operation] at done
      split at done
      · cases done
        exact ⟨rfl, rfl⟩
      · exact file_fsync_counts io before after done
end Execution

/-! All threads. -/
section Threads

inductive Phase where
  | idle
  /-- The request that `next_event` gave and `execute_event` has not seen. -/
  | executing (request : FileRequest)
  | failed (text : String)

structure State (n : Nat) where
  generator : GeneratorState
  phase : Fin n → Phase
  counters : Fin n → Counters

inductive Action (n : Nat) where
  /-- `draws`: the values of `sb_rand_uniform_double`. -/
  | nextEvent (w : Fin n) (draws : List Draw)
  | executeEvent (w : Fin n) (io : IoAnswers)

variable {n : Nat}

def State.moved (s : State n) (w : Fin n) (phase : Phase) : State n :=
  { s with phase := fun other => if other = w then phase else s.phase other }

def nextEvent (cfg : FileConfig) (s : State n) (w : Fin n) (draws : List Draw) :
    Option (State n) :=
  match s.phase w with
  | .idle =>
      match fileNextEvent cfg s.generator w (s.counters w).reads (s.counters w).writes draws with
      | .request request after => some { s.moved w (.executing request) with generator := after }
      | .divisionByZero | .retrying => none
  | _ => none

def executeEvent (cfg : FileConfig) (s : State n) (w : Fin n) (io : IoAnswers) :
    Option (State n) :=
  match s.phase w with
  | .executing request =>
      match fileExecuteEvent cfg io request (s.counters w) with
      | .ok after => some { s.moved w .idle with
          counters := fun other => if other = w then after else s.counters other }
      | .error text => some (s.moved w (.failed text))
  | _ => none

def step (cfg : FileConfig) (s : State n) : Action n → Option (State n)
  | .nextEvent w draws => nextEvent cfg s w draws
  | .executeEvent w io => executeEvent cfg s w io

/-- The counters are zero and no thread has a request. -/
def start (n : Nat) (generator : GeneratorState) : State n :=
  { generator := generator, phase := fun _ => .idle, counters := fun _ => ⟨0, 0, 0, 0, 0⟩ }
end Threads

/-! The mix: one event at most above or below the ratio. -/
section Mix

/-- `r` reads and `w` writes at the ratio `q`. -/
structure MixKept (q : ℚ) (r w : Nat) : Prop where
  writes : w = 0 ∨ q * w ≤ r + 1
  reads : r = 0 ∨ r < q * (w + 1)

theorem mix_start (q : ℚ) : MixKept q 0 0 := ⟨Or.inl rfl, Or.inl rfl⟩

theorem mix_read {q : ℚ} {r w : Nat} (kept : MixKept q r w) (due : (r + 1 : ℚ) < q * (w + 1)) :
    MixKept q (r + 1) w := by
  constructor
  · rcases kept.writes with none_ | bounded
    · exact Or.inl none_
    · right
      push_cast
      linarith
  · right
    push_cast
    exact due

theorem mix_write {q : ℚ} {r w : Nat} (nonneg : 0 ≤ q) (kept : MixKept q r w)
    (due : q * (w + 1) ≤ (r + 1 : ℚ)) : MixKept q r (w + 1) := by
  constructor
  · right
    push_cast
    exact due
  · rcases kept.reads with none_ | bounded
    · exact Or.inl none_
    · right
      push_cast
      linarith

/-- What the choice of an operation says about the counters it was made from. -/
def Chosen (q : ℚ) (operation : FileOp) (r w : Nat) : Prop :=
  match operation with
  | .read => (r + 1 : ℚ) < q * (w + 1)
  | .write => q * (w + 1) ≤ (r + 1 : ℚ)
  | _ => True

theorem operation_chosen (cfg : FileConfig) (mixed : cfg.testMode = .rndRw) (r w : Nat) :
    Chosen cfg.rwRatio (rndOperation cfg r w) r w := by
  have positive : (0 : ℚ) < w + 1 := by positivity
  simp only [rndOperation, mixed]
  split
  · rename_i below
    exact (div_lt_iff₀ positive).mp below
  · rename_i above
    exact (le_div_iff₀ positive).mp (not_lt.mp above)

theorem next_event_chosen (cfg : FileConfig) (mixed : cfg.testMode = .rndRw)
    (st after : GeneratorState) (tid r w : Nat) (draws : List Draw) (request : FileRequest)
    (made : fileNextEvent cfg st tid r w draws = .request request after) :
    Chosen cfg.rwRatio request.operation r w := by
  have random : ¬ (cfg.testMode = .write ∨ cfg.testMode = .rewrite ∨ cfg.testMode = .read) := by
    rw [mixed]
    decide
  rw [fileNextEvent, if_neg random] at made
  rcases rnd_request_cases cfg st after tid r w draws request made with fsync | ⟨draw, drawn⟩
  · rw [fsync]
    trivial
  · rw [drawn_operation cfg.sizes _ draw request drawn]
    exact operation_chosen cfg mixed r w

theorem mix_counted {q : ℚ} {operation : FileOp} {before after : Counters} (nonneg : 0 ≤ q)
    (kept : MixKept q before.reads before.writes)
    (chosen : Chosen q operation before.reads before.writes)
    (counted : Counted operation before after) : MixKept q after.reads after.writes := by
  cases operation with
  | read =>
      rw [counted.1, counted.2]
      exact mix_read kept chosen
  | write =>
      rw [counted.1, counted.2]
      exact mix_write nonneg kept chosen
  | null | fsync =>
      rw [counted.1, counted.2]
      exact kept

variable {n : Nat} {cfg : FileConfig} {s t : State n}

/-- The mix of every thread; a request that waits was chosen from the counters as they are. -/
structure Mixing (cfg : FileConfig) (s : State n) : Prop where
  kept : ∀ w, MixKept cfg.rwRatio (s.counters w).reads (s.counters w).writes
  chosen : ∀ w request, s.phase w = .executing request →
    Chosen cfg.rwRatio request.operation (s.counters w).reads (s.counters w).writes

theorem start_mixing (cfg : FileConfig) (generator : GeneratorState) :
    Mixing cfg (start n generator) :=
  ⟨fun _ => mix_start _, fun _ _ waits => nomatch waits⟩

theorem next_event_mixing (mixed : cfg.testMode = .rndRw) (mixing : Mixing cfg s) (w : Fin n)
    (draws : List Draw) (taken : nextEvent cfg s w draws = some t) : Mixing cfg t := by
  unfold nextEvent at taken
  split at taken
  · split at taken
    · rename_i request after made
      cases taken
      refine ⟨mixing.kept, fun other waiting waits => ?_⟩
      by_cases own : other = w
      · subst own
        simp only [State.moved, if_true] at waits
        cases waits
        exact next_event_chosen cfg mixed _ after _ _ _ draws request made
      · simp only [State.moved, if_neg own] at waits
        exact mixing.chosen other waiting waits
    · cases taken
    · cases taken
  · cases taken

theorem execute_event_mixing (sync : cfg.ioMode = .sync) (nonneg : 0 ≤ cfg.rwRatio)
    (mixing : Mixing cfg s) (w : Fin n) (io : IoAnswers)
    (taken : executeEvent cfg s w io = some t) : Mixing cfg t := by
  unfold executeEvent at taken
  split at taken
  · rename_i request waits
    split at taken
    · rename_i after done
      cases taken
      -- the choice was made by the worker's own counters, which no other one moves
      have next := mix_counted nonneg (mixing.kept w) (mixing.chosen w request waits)
        (execute_counted sync done)
      constructor
      · intro other
        by_cases own : other = w
        · simpa [own] using next
        · simpa [own] using mixing.kept other
      · intro other waiting waits
        by_cases own : other = w
        · simp [State.moved, own] at waits
        · simp only [State.moved, if_neg own] at waits
          simpa [own] using mixing.chosen other waiting waits
    · cases taken
      refine ⟨mixing.kept, fun other waiting waits => ?_⟩
      by_cases own : other = w
      · simp [State.moved, own] at waits
      · simp only [State.moved, if_neg own] at waits
        exact mixing.chosen other waiting waits
  · cases taken

/-- Whatever the threads draw and whichever way they take turns, every thread's reads and
writes stay within one event of the ratio. -/
theorem read_write_mix (cfg : FileConfig) (sync : cfg.ioMode = .sync)
    (mixed : cfg.testMode = .rndRw) (nonneg : 0 ≤ cfg.rwRatio) (generator : GeneratorState)
    (schedule : List (Action n)) :
    Always (step cfg)
      (fun s => ∀ w, MixKept cfg.rwRatio (s.counters w).reads (s.counters w).writes)
      (start n generator) schedule := by
  have all : Always (step cfg) (Mixing cfg) (start n generator) schedule := by
    refine invariant_keeps (fun s a t mixing taken => ?_) _ schedule (start_mixing cfg generator)
    cases a with
    | nextEvent w draws => exact next_event_mixing mixed mixing w draws taken
    | executeEvent w io => exact execute_event_mixing sync nonneg mixing w io taken
  exact always_mono (fun s mixing => mixing.kept) _ schedule all

/-- `--file-test-mode=rndrw` with the default ratio of 1.5. -/
def mixConfig : FileConfig := { tailConfig with testMode := .rndRw }

theorem zero_drawn : (0 : ℚ) ≤ 0 := le_refl 0

theorem zero_below : (0 : ℚ) < 1 := one_pos

def zeroDraw : Draw := ⟨0, zero_drawn, zero_below⟩

/-- One byte was transferred, and the file system is content. -/
def oneByte : IoAnswers := { fd := 3, pwrite := 1, pread := 1, synced := true, valid := true }

def firstThread : Fin 2 := ⟨0, Nat.zero_lt_two⟩

def secondThread : Fin 2 := ⟨1, Nat.one_lt_two⟩

/-- Two threads: both choose a read, and the first one then a write. -/
def mixSchedule : List (Action 2) :=
  [.nextEvent firstThread [zeroDraw], .nextEvent secondThread [zeroDraw],
    .executeEvent firstThread oneByte, .executeEvent secondThread oneByte,
    .nextEvent firstThread [zeroDraw], .executeEvent firstThread oneByte]

theorem read_write_mix_two_threads :
    (mixConfig.ioMode = .sync ∧ mixConfig.testMode = .rndRw ∧ 0 ≤ mixConfig.rwRatio) ∧
      (run (step mixConfig) (start 2 idleState) mixSchedule).map
        (fun s => ((s.counters 0).reads, (s.counters 0).writes, (s.counters 1).reads)) =
          some (1, 1, 1) ∧
      Always (step mixConfig)
        (fun s => ∀ w, MixKept mixConfig.rwRatio (s.counters w).reads (s.counters w).writes)
        (start 2 idleState) mixSchedule :=
  ⟨⟨rfl, rfl, by decide +kernel⟩, by decide +kernel,
    read_write_mix mixConfig rfl rfl (by decide +kernel) idleState mixSchedule⟩
end Mix
end PteSysbench.ReadWriteMix
