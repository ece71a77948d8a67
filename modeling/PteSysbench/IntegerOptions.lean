import PteSysbench.AsyncAccounting
import PteSysbench.OptionValues
import Mathlib.Data.Int.Order.Basic

/-!
What `init` of `sysbench.c` and the file test make of their integer options. Every
value is an `int` first; what it is stored in is unsigned, and so is what is checked.
-/

namespace PteSysbench.IntegerOptions

open OptionRegistry OptionValues

/-- A getter exits, the start-up says why it ends, or it writes through NULL or outside
an array. -/
inductive Failure where
  | exits (failure : InvalidValue)
  | fatal (message : String)
  | faults
  deriving DecidableEq

/-- What the start-up is granted of what it asks the system for: the blocks of memory by
what they are for, all buffers and all lists of events taken together, and the queues of
`io_queue_init`. -/
structure Memory where
  threadContexts : Bool
  timers : Bool
  timersCopy : Bool
  counters : Bool
  perThread : Bool
  buffers : Bool
  files : Bool
  contexts : Bool
  queues : Bool
  events : Bool

def grant (granted : Bool) (otherwise : Failure) : Except Failure Unit :=
  if granted then .ok () else .error otherwise

/-- The numbers of `sb_globals` that `init` fills in. -/
structure Globals where
  threads : UInt32
  maxEvents : UInt64
  warmupTime : Int
  maxTimeNs : UInt64
  txRate : UInt32
  reportInterval : UInt32
  deriving DecidableEq

/-- SEC2NS. -/
def sec2ns (sec : Int) : UInt64 := UInt64.ofInt sec * 1000000000

def getInt (options : Registry) (name : Text) : Except Failure Int :=
  (sbGetValueInt options name).mapError .exits

/-- `max_time_ns`: the time of the warm-up is added to a limit. -/
def timeLimit (maxTime warmupTime : Int) : UInt64 :=
  if 0 < sec2ns maxTime ∧ 0 < warmupTime then sec2ns maxTime + sec2ns warmupTime
  else sec2ns maxTime

/-- The size is stored in an `int`. -/
def threadStackSize (options : Registry) : Int :=
  Int.bmod (sbGetValueSize options (text "thread-stack-size")).toNat (2 ^ 32)

def sbThreadInit (memory : Memory) (options : Registry) : Except Failure Unit :=
  if threadStackSize options ≤ 0 then
    .error (.fatal ("Invalid value for thread-stack-size: " ++
      toString (threadStackSize options) ++ ".\n"))
  else grant memory.threadContexts (.fatal "Memory allocation failure.\n")

/-- The number of elements is an `unsigned int`. What was not allocated is cleared
through NULL, unless there is nothing to clear. -/
def sbAllocPerThreadArray (threads : UInt32) (granted : Bool) : Except Failure UInt32 :=
  if granted then .ok (threads + 1)
  else if threads + 1 = 0 then .error (.fatal "Memory allocation failure")
  else .error .faults

/-- The loop over all timers. -/
def initTimers (threads timers : UInt32) : Except Failure Unit :=
  grant (threads ≤ timers) .faults

/-- `init`, as far as the integer options and what they make it allocate go. -/
def init (memory : Memory) (options : Registry) : Except Failure Globals := do
  let threads := UInt32.ofInt (← getInt options (text "threads"))
  let _ ← getInt options (text "thread-init-timeout")
  if threads ≤ 0 then
    .error (.fatal ("Invalid value for --threads: " ++ toString threads.toNat ++ ".\n"))
  else do
    let maxEvents := UInt64.ofInt (← getInt options (text "events"))
    let warmupTime ← getInt options (text "warmup-time")
    if warmupTime < 0 then
      .error (.fatal ("Invalid value for --warmup-time: " ++ toString warmupTime ++ ".\n"))
    else do
      let maxTime ← getInt options (text "time")
      sbThreadInit memory options
      let txRate := UInt32.ofInt (← getInt options (text "rate"))
      let reportInterval := UInt32.ofInt (← getInt options (text "report-interval"))
      let timers ← sbAllocPerThreadArray threads memory.timers
      let _ ← sbAllocPerThreadArray threads memory.timersCopy
      initTimers threads timers
      .ok {
        threads, maxEvents, warmupTime, txRate, reportInterval
        maxTimeNs := timeLimit maxTime warmupTime }

/-- `parse_arguments` of the file test, as far as the number of files and the buffers of
the threads go. -/
def parseArguments (memory : Memory) (options : Registry) :
    Except Failure { n : Nat // 0 < n ∧ n < 2 ^ 32 } := do
  let numFiles ← (FileRequests.parseNumFiles (← getInt options (text "file-num"))).mapError .fatal
  grant memory.perThread .faults
  grant memory.buffers (.fatal "Failed to allocate a memory buffer")
  .ok numFiles

/-- `file_async_init`: only the asynchronous mode has a backlog. -/
def fileAsyncInit (memory : Memory) (ioMode : FileRequests.FileIoMode) (options : Registry) :
    Except Failure (Option { n : Nat // 0 < n ∧ n < 2 ^ 32 }) :=
  if ioMode = .async then do
    let number ← getInt options (text "file-async-backlog")
    let backlog ← (AsyncAccounting.parseBacklog number).mapError .fatal
    grant memory.contexts .faults
    grant memory.queues (.fatal "io_queue_init() failed!")
    grant memory.events (.fatal "Failed to allocate async I/O context!")
    .ok (some backlog)
  else .ok none

structure StartUp where
  globals : Globals
  numFiles : { n : Nat // 0 < n ∧ n < 2 ^ 32 }
  backlog : Option { n : Nat // 0 < n ∧ n < 2 ^ 32 }

/-- The start-up of a file test: `init`, `sb_counters_init` and `file_init`. -/
def startUp (memory : Memory) (ioMode : FileRequests.FileIoMode) (options : Registry) :
    Except Failure StartUp := do
  let globals ← init memory options
  let _ ← sbAllocPerThreadArray globals.threads memory.counters
  let numFiles ← parseArguments memory options
  grant memory.files (.fatal "Memory allocation failure.")
  let backlog ← fileAsyncInit memory ioMode options
  .ok { globals, numFiles, backlog }

inductive IntOption where
  | threads
  | events
  | time
  | rate
  | reportInterval
  | fileNum
  | fileAsyncBacklog
  deriving DecidableEq

namespace IntOption

def name : IntOption → Text
  | .threads => text "threads"
  | .events => text "events"
  | .time => text "time"
  | .rate => text "rate"
  | .reportInterval => text "report-interval"
  | .fileNum => text "file-num"
  | .fileAsyncBacklog => text "file-async-backlog"

/-- There is no program with none of these. -/
def atLeastOne : IntOption → Bool
  | .threads | .fileNum | .fileAsyncBacklog => true
  | _ => false

/-- The number that the program works with. -/
def quantity (started : StartUp) : IntOption → Option Nat
  | .threads => some started.globals.threads.toNat
  | .events => some started.globals.maxEvents.toNat
  | .time => some started.globals.maxTimeNs.toNat
  | .rate => some started.globals.txRate.toNat
  | .reportInterval => some started.globals.reportInterval.toNat
  | .fileNum => some started.numFiles
  | .fileAsyncBacklog => started.backlog.map Subtype.val

/-- What the number stands for. -/
def meaning : IntOption → Int → Int
  | .time, sec => sec * 10 ^ 9
  | _, number => number

end IntOption

/-- The program works with the number it was given. -/
def Kept (started : StartUp) (opt : IntOption) (number : Int) : Prop :=
  ∀ used, opt.quantity started = some used →
    (used : Int) = opt.meaning number ∧ (opt.atLeastOne = true → 1 ≤ used)

/-! Conversions of an `int`. -/
section Conversions

theorem unsigned_to_nat (number : Int) :
    (UInt32.ofInt number).toNat = (number % 2 ^ 32).toNat := by
  rw [UInt32.ofInt, UInt32.toNat_ofNat']
  omega

theorem uint64_to_nat (number : Int) :
    (UInt64.ofInt number).toNat = (number % 2 ^ 64).toNat := by
  rw [UInt64.ofInt, UInt64.toNat_ofNat']
  omega

/-- A negative number has no place in an unsigned type. -/
theorem unsigned_exact_iff (number : Int) (fits : -2 ^ 31 ≤ number ∧ number < 2 ^ 31) :
    ((UInt32.ofInt number).toNat : Int) = number ↔ 0 ≤ number := by
  rw [unsigned_to_nat]
  omega

theorem uint64_exact_iff (number : Int) (fits : -2 ^ 31 ≤ number ∧ number < 2 ^ 31) :
    ((UInt64.ofInt number).toNat : Int) = number ↔ 0 ≤ number := by
  rw [uint64_to_nat]
  omega

theorem sec2ns_to_nat (sec : Int) (low : 0 ≤ sec) (high : sec < 2 ^ 31) :
    ((sec2ns sec).toNat : Int) = sec * 10 ^ 9 := by
  have billion : (1000000000 : UInt64).toNat = 1000000000 := rfl
  rw [sec2ns, UInt64.toNat_mul, uint64_to_nat, billion]
  omega

theorem time_limit_to_nat (maxTime warmupTime : Int) (low : 0 ≤ maxTime)
    (high : maxTime < 2 ^ 31) (warmLow : 0 ≤ warmupTime) (warmHigh : warmupTime < 2 ^ 31) :
    ((timeLimit maxTime warmupTime).toNat : Int) =
      maxTime * 10 ^ 9 + if 0 < maxTime then warmupTime * 10 ^ 9 else 0 := by
  have limit := sec2ns_to_nat maxTime low high
  have warm := sec2ns_to_nat warmupTime warmLow warmHigh
  have some_ : 0 < sec2ns maxTime ↔ 0 < maxTime := by
    rw [UInt64.lt_iff_toNat_lt, UInt64.toNat_zero]
    omega
  unfold timeLimit
  by_cases limited : 0 < maxTime
  · by_cases warmed : 0 < warmupTime
    · rw [if_pos ⟨some_.mpr limited, warmed⟩, if_pos limited, UInt64.toNat_add]
      omega
    · rw [if_neg fun both => warmed both.2, if_pos limited]
      omega
  · rw [if_neg fun both => limited (some_.mp both.1), if_neg limited]
    omega

end Conversions

/-! What a start-up has read. -/
section Reading
variable {memory : Memory} {ioMode : FileRequests.FileIoMode} {options : Registry}
  {started : StartUp}

theorem get_int_eq (name : Text) (number : Int) :
    getInt options name = .ok number ↔ sbGetValueInt options name = .ok number := by
  unfold getInt
  cases sbGetValueInt options name <;> simp [Except.mapError]

theorem map_error_ok {Early Late Result : Type} (say : Early → Late)
    (result : Except Early Result) (value : Result) (done : result.mapError say = .ok value) :
    result = .ok value := by
  cases result with
  | error failure => cases done
  | ok other => exact congrArg _ (Except.ok.inj done)

/-- Where the numbers of a start-up come from, and what its checks have let through. -/
structure ReadFrom (options : Registry) (started : StartUp) : Prop where
  threads : ∃ number, getInt options (text "threads") = .ok number ∧
    started.globals.threads = UInt32.ofInt number ∧ ¬ started.globals.threads ≤ 0
  events : ∃ number, getInt options (text "events") = .ok number ∧
    started.globals.maxEvents = UInt64.ofInt number
  warmup : ∃ number, getInt options (text "warmup-time") = .ok number ∧
    started.globals.warmupTime = number ∧ 0 ≤ number
  time : ∃ number, getInt options (text "time") = .ok number ∧
    started.globals.maxTimeNs = timeLimit number started.globals.warmupTime
  rate : ∃ number, getInt options (text "rate") = .ok number ∧
    started.globals.txRate = UInt32.ofInt number
  reportInterval : ∃ number, getInt options (text "report-interval") = .ok number ∧
    started.globals.reportInterval = UInt32.ofInt number
  files : ∃ number, getInt options (text "file-num") = .ok number ∧
    FileRequests.parseNumFiles number = .ok started.numFiles
  backlog : ∀ backlog, started.backlog = some backlog →
    ∃ number, getInt options (text "file-async-backlog") = .ok number ∧
      AsyncAccounting.parseBacklog number = .ok backlog

theorem async_init_read {backlog : { n : Nat // 0 < n ∧ n < 2 ^ 32 }}
    (done : fileAsyncInit memory ioMode options = .ok (some backlog)) :
    ∃ number, getInt options (text "file-async-backlog") = .ok number ∧
      AsyncAccounting.parseBacklog number = .ok backlog := by
  unfold fileAsyncInit at done
  split at done
  · obtain ⟨number, read, done⟩ := ActionSystem.bind_ok _ _ _ done
    obtain ⟨depth, parsed, done⟩ := ActionSystem.bind_ok _ _ _ done
    obtain ⟨_, _, done⟩ := ActionSystem.bind_ok _ _ _ done
    obtain ⟨_, _, done⟩ := ActionSystem.bind_ok _ _ _ done
    obtain ⟨_, _, done⟩ := ActionSystem.bind_ok _ _ _ done
    obtain rfl := Option.some.inj (Except.ok.inj done)
    exact ⟨number, read, map_error_ok _ _ _ parsed⟩
  · cases done

theorem backlog_value (number : Int) (backlog : { n : Nat // 0 < n ∧ n < 2 ^ 32 })
    (parsed : AsyncAccounting.parseBacklog number = .ok backlog) :
    (backlog : Nat) = (number % 2 ^ 32).toNat := by
  simp only [AsyncAccounting.parseBacklog] at parsed
  split at parsed
  · cases parsed
  · obtain rfl := Except.ok.inj parsed
    rfl

theorem start_up_read (done : startUp memory ioMode options = .ok started) :
    ReadFrom options started := by
  -- the options in the order in which they are read, between them what is allocated
  obtain ⟨globals, general, done⟩ := ActionSystem.bind_ok _ _ _ done
  obtain ⟨_, _, done⟩ := ActionSystem.bind_ok _ _ _ done
  obtain ⟨numFiles, files, done⟩ := ActionSystem.bind_ok _ _ _ done
  obtain ⟨_, _, done⟩ := ActionSystem.bind_ok _ _ _ done
  obtain ⟨backlog, asynchronous, done⟩ := ActionSystem.bind_ok _ _ _ done
  obtain rfl := Except.ok.inj done
  obtain ⟨threads, threadsRead, general⟩ := ActionSystem.bind_ok _ _ _ general
  obtain ⟨_, _, general⟩ := ActionSystem.bind_ok _ _ _ general
  split at general
  · cases general
  · rename_i someThreads
    obtain ⟨events, eventsRead, general⟩ := ActionSystem.bind_ok _ _ _ general
    obtain ⟨warmup, warmupRead, general⟩ := ActionSystem.bind_ok _ _ _ general
    split at general
    · cases general
    · rename_i warm
      obtain ⟨time, timeRead, general⟩ := ActionSystem.bind_ok _ _ _ general
      obtain ⟨_, _, general⟩ := ActionSystem.bind_ok _ _ _ general
      obtain ⟨rate, rateRead, general⟩ := ActionSystem.bind_ok _ _ _ general
      obtain ⟨interval, intervalRead, general⟩ := ActionSystem.bind_ok _ _ _ general
      obtain ⟨_, _, general⟩ := ActionSystem.bind_ok _ _ _ general
      obtain ⟨_, _, general⟩ := ActionSystem.bind_ok _ _ _ general
      obtain ⟨_, _, general⟩ := ActionSystem.bind_ok _ _ _ general
      obtain rfl := Except.ok.inj general
      obtain ⟨fileNum, fileNumRead, files⟩ := ActionSystem.bind_ok _ _ _ files
      obtain ⟨parsed, filesParsed, files⟩ := ActionSystem.bind_ok _ _ _ files
      obtain ⟨_, _, files⟩ := ActionSystem.bind_ok _ _ _ files
      obtain ⟨_, _, files⟩ := ActionSystem.bind_ok _ _ _ files
      obtain rfl := Except.ok.inj files
      constructor
      · exact ⟨threads, threadsRead, rfl, someThreads⟩
      · exact ⟨events, eventsRead, rfl⟩
      · exact ⟨warmup, warmupRead, rfl, Int.not_lt.mp warm⟩
      · exact ⟨time, timeRead, rfl⟩
      · exact ⟨rate, rateRead, rfl⟩
      · exact ⟨interval, intervalRead, rfl⟩
      · exact ⟨fileNum, fileNumRead, map_error_ok _ _ _ filesParsed⟩
      · rintro depth rfl
        exact async_init_read asynchronous

theorem kept_iff {opt : IntOption} {number : Int} (used : Nat)
    (held : opt.quantity started = some used) (enough : opt.atLeastOne = true → 1 ≤ used) :
    Kept started opt number ↔ (used : Int) = opt.meaning number := by
  simp only [Kept, held, Option.some.injEq, forall_eq', and_iff_left_iff_imp]
  exact fun _ => enough

/-- What keeps the meaning of an option. The warm-up of a limited run is added to its
limit. -/
def Plain (options : Registry) (opt : IntOption) (number : Int) : Prop :=
  0 ≤ number ∧
    (opt = .time → 0 < number → sbGetValueInt options (text "warmup-time") = .ok 0)

theorem plain_other (opt : IntOption) (number : Int) (other : opt ≠ .time) :
    Plain options opt number ↔ 0 ≤ number :=
  and_iff_left fun same => absurd same other

/-- The integer options keep their meaning just when they are not negative, and a time
limit when no warm-up is added to it. -/
theorem start_up_keeps_iff (done : startUp memory ioMode options = .ok started) (opt : IntOption)
    (number : Int) (given : sbGetValueInt options opt.name = .ok number)
    (used : (opt.quantity started).isSome = true) :
    Kept started opt number ↔ Plain options opt number := by
  have read := start_up_read done
  have fits := get_value_int_fits options opt.name number given
  have known := (get_int_eq opt.name number).mpr given
  have same (name : Text) (other : Int) (mine : opt.name = name)
      (taken : getInt options name = .ok other) : other = number := by
    rw [← mine, known] at taken
    exact (Except.ok.inj taken).symm
  cases opt with
  | threads =>
      obtain ⟨other, taken, stored, some_⟩ := read.threads
      obtain rfl := same _ other rfl taken
      have positive : 1 ≤ started.globals.threads.toNat := by
        rw [UInt32.le_iff_toNat_le, UInt32.toNat_zero] at some_
        omega
      rw [plain_other .threads _ nofun, kept_iff _ rfl fun _ => positive, stored]
      exact unsigned_exact_iff other fits
  | events =>
      obtain ⟨other, taken, stored⟩ := read.events
      obtain rfl := same _ other rfl taken
      rw [plain_other .events _ nofun, kept_iff _ rfl (by simp [IntOption.atLeastOne]), stored]
      exact uint64_exact_iff other fits
  | time =>
      obtain ⟨other, taken, stored⟩ := read.time
      obtain ⟨warmup, warmTaken, warmStored, warm⟩ := read.warmup
      have warmRead := (get_int_eq _ _).mp warmTaken
      have warmFits := get_value_int_fits options _ warmup warmRead
      obtain rfl := same _ other rfl taken
      rw [kept_iff _ rfl (by simp [IntOption.atLeastOne]), stored, IntOption.meaning, warmStored,
        Plain, warmRead]
      constructor
      · intro exact_
        have low : 0 ≤ other := by
          by_contra negative
          omega
        rw [time_limit_to_nat other warmup low fits.2 warm warmFits.2] at exact_
        refine ⟨low, fun _ limited => ?_⟩
        rw [if_pos limited] at exact_
        rw [show warmup = 0 by omega]
      · rintro ⟨low, cold⟩
        rw [time_limit_to_nat other warmup low fits.2 warm warmFits.2]
        split
        · rename_i limited
          obtain rfl := Except.ok.inj (cold rfl limited)
          rw [Int.zero_mul, Int.add_zero]
        · exact Int.add_zero _
  | rate =>
      obtain ⟨other, taken, stored⟩ := read.rate
      obtain rfl := same _ other rfl taken
      rw [plain_other .rate _ nofun, kept_iff _ rfl (by simp [IntOption.atLeastOne]), stored]
      exact unsigned_exact_iff other fits
  | reportInterval =>
      obtain ⟨other, taken, stored⟩ := read.reportInterval
      obtain rfl := same _ other rfl taken
      rw [plain_other .reportInterval _ nofun, kept_iff _ rfl (by simp [IntOption.atLeastOne]),
        stored]
      exact unsigned_exact_iff other fits
  | fileNum =>
      obtain ⟨other, taken, parsed⟩ := read.files
      obtain rfl := same _ other rfl taken
      rw [plain_other .fileNum _ nofun, kept_iff _ rfl fun _ => started.numFiles.2.1,
        FileRequests.num_files_value other _ parsed, ← unsigned_to_nat]
      exact unsigned_exact_iff other fits
  | fileAsyncBacklog =>
      obtain ⟨depth, held⟩ := Option.isSome_iff_exists.mp used
      obtain ⟨backlog, present, rfl⟩ := Option.map_eq_some_iff.mp held
      obtain ⟨other, taken, parsed⟩ := read.backlog backlog present
      obtain rfl := same _ other rfl taken
      rw [plain_other .fileAsyncBacklog _ nofun, kept_iff _ held fun _ => backlog.2.1,
        backlog_value other _ parsed, ← unsigned_to_nat]
      exact unsigned_exact_iff other fits

/-- An option list with these values. -/
def optionsOf (values : List (String × String)) : Registry :=
  values.map fun (name, value) => { newOption (text name) with values := [text value] }

def enough : Memory :=
  { threadContexts := true, timers := true, timersCopy := true, counters := true
    perThread := true, buffers := true, files := true, contexts := true, queues := true
    events := true }

def fourThreads : Registry :=
  optionsOf [("threads", "4"), ("thread-stack-size", "64K"), ("file-num", "128")]

theorem four_threads :
    ∃ started, startUp enough .sync fourThreads = .ok started ∧
      (Kept started .threads 4 ↔ Plain fourThreads .threads 4) := by
  obtain ⟨started, done⟩ : ∃ started, startUp enough .sync fourThreads = .ok started := ⟨_, rfl⟩
  exact ⟨started, done, start_up_keeps_iff done .threads 4 rfl rfl⟩

/-- `--time=-1` runs for centuries, and `--events=-1` for as many events. -/
theorem minus_one_is_large :
    ∃ started, startUp enough .sync (optionsOf [("threads", "1"), ("thread-stack-size", "64K"),
        ("events", "-1"), ("time", "-1"), ("file-num", "128")]) = .ok started ∧
      started.globals.maxEvents = 18446744073709551615 ∧
      started.globals.maxTimeNs = 18446744072709551616 ∧
      ¬ Kept started .events (-1) ∧ ¬ Kept started .time (-1) := by
  obtain ⟨started, done, events, time⟩ : ∃ started, startUp enough .sync
      (optionsOf [("threads", "1"), ("thread-stack-size", "64K"), ("events", "-1"),
        ("time", "-1"), ("file-num", "128")]) = .ok started ∧
      started.globals.maxEvents = 18446744073709551615 ∧
      started.globals.maxTimeNs = 18446744072709551616 := ⟨_, rfl, rfl, rfl⟩
  refine ⟨started, done, events, time, fun kept => ?_, fun kept => ?_⟩
  · have same := (kept _ rfl).1
    rw [events] at same
    cases same
  · have same := (kept _ rfl).1
    rw [time] at same
    cases same

end Reading
end PteSysbench.IntegerOptions
