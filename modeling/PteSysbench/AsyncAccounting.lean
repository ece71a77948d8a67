import PteSysbench.FileRequests
import PteSysbench.SbCounter
import Mathlib.Data.List.TakeWhile
import Mathlib.Data.Multiset.AddSub
import Mathlib.Data.Multiset.Range

/-!
The asynchronous operations of one thread: `file_submit_or_wait`, `file_wait` and
`file_thread_done`. The kernel's answers are parameters of the calls; `io_getevents`
gives an error or distinct outstanding operations, as many as it was asked for.
-/

namespace PteSysbench.AsyncAccounting

open ActionSystem FileRequests
open SbCounter (CounterType)

/-- A configuration behind `file_async_init`. -/
structure AsyncConfig where
  file : FileConfig
  backlog : Nat
  async : file.ioMode = .async
  someBacklog : 0 < backlog
  backlogUnsigned : backlog < 2 ^ 32

theorem unsigned_lt (value : Int) : (value % 2 ^ 32).toNat < 2 ^ 32 := by omega

/-- An `int` read into an `unsigned int`: its check `<= 0` refuses 0 only. -/
def parseBacklog (value : Int) : Except String { n : Nat // 0 < n ∧ n < 2 ^ 32 } :=
  let backlog := (value % 2 ^ 32).toNat
  if none_ : backlog ≤ 0 then
    .error ("Invalid value of file-async-backlog: " ++ toString backlog)
  else .ok ⟨backlog, Nat.lt_of_not_le none_, unsigned_lt value⟩

/-- `sb_aio_oper_t`. Its address is the number of the submission. -/
structure Oper where
  number : Nat
  type : FileOp
  len : Int
  deriving DecidableEq

/-- `struct io_event`. -/
structure IoEvent where
  oper : Oper
  res : Int
  deriving DecidableEq

inductive Call where
  | submitOrWait
  | wait
  | threadDone
  deriving DecidableEq

/-- `outstanding` is the kernel's. `submitted`, `reaped`, `freed`, `indexed`, which is the
number of elements of `events` that were used, and the last call with its result (0 is
`true`) are history. -/
structure State where
  nrequests : Nat
  counters : CounterType → UInt64
  outstanding : Multiset Oper
  submitted : Nat
  reaped : List IoEvent
  freed : List Oper
  indexed : Nat
  returned : Option (Call × Bool)

/-- `sb_counter_add` for the thread's own slot. -/
def State.count (s : State) (type : CounterType) (val : UInt64) : State :=
  { s with counters := Function.update s.counters type (s.counters type + val) }

def succeeded (event : IoEvent) : Bool :=
  match event.oper.type with
  | .fsync => event.res == 0
  | .read | .write => event.res == event.oper.len
  | .null => true

def State.countOper (s : State) (oper : Oper) : State :=
  match oper.type with
  | .fsync => s.count .other 1
  | .read => (s.count .read 1).count .bytesRead (UInt64.ofInt oper.len)
  | .write => (s.count .write 1).count .bytesWritten (UInt64.ofInt oper.len)
  | .null => s

/-- The loop of `file_wait`. It returns at the first operation that failed. -/
def verify : List IoEvent → State → Bool × State
  | [], s => (true, s)
  | event :: rest, s =>
      if succeeded event then
        verify rest { s.countOper event.oper with
          freed := s.freed ++ [event.oper]
          nrequests := (s.nrequests + 2 ^ 32 - 1) % 2 ^ 32 }
      else (false, s)

/-- What `io_getevents` may give. -/
def Delivered (cfg : AsyncConfig) (s : State) (nreq : Int) (events : List IoEvent) : Prop :=
  nreq ≤ events.length ∧ events.length ≤ cfg.backlog ∧
    (events.map IoEvent.oper : Multiset Oper) ≤ s.outstanding

instance (cfg : AsyncConfig) (s : State) (nreq : Int) (events : List IoEvent) :
    Decidable (Delivered cfg s nreq events) :=
  inferInstanceAs (Decidable (_ ∧ _))

def reap (s : State) (events : List IoEvent) : State :=
  { s with
    outstanding := s.outstanding - (events.map IoEvent.oper : Multiset Oper)
    reaped := s.reaped ++ events
    indexed := max s.indexed events.length }

def fileWait (cfg : AsyncConfig) (nreq : Int) (answer : Option (List IoEvent)) (s : State) :
    Option (Bool × State) :=
  match answer with
  | none | some [] => some (false, s)
  | some events =>
      if Delivered cfg s nreq events then some (verify events (reap s events)) else none

def submit (s : State) (type : FileOp) (len : Int) : State :=
  { s with
    outstanding := ⟨s.submitted, type, len⟩ ::ₘ s.outstanding
    submitted := s.submitted + 1
    nrequests := (s.nrequests + 1) % 2 ^ 32 }

/-- `allocated` and `accepted`: malloc and io_submit succeeded. -/
def fileSubmitOrWait (cfg : AsyncConfig) (type : FileOp) (len : Int) (allocated accepted : Bool)
    (answer : Option (List IoEvent)) (s : State) : Option (Bool × State) :=
  if allocated && accepted then
    if (submit s type len).nrequests < cfg.backlog then some (true, submit s type len)
    else fileWait cfg 1 answer (submit s type len)
  else some (false, s)

/-- The loop of `file_thread_done`; `synced` says which files can be fsynced. -/
def fsyncFiles (synced : Nat → Bool) : List Nat → State → Bool × State
  | [], s => (true, s)
  | i :: rest, s =>
      if synced i then fsyncFiles synced rest (s.count .other 1) else (false, s)

def fsyncEnd (cfg : AsyncConfig) (synced : Nat → Bool) (s : State) : Bool × State :=
  if cfg.file.fsyncEnd ∧ cfg.file.testMode ≠ .read ∧ cfg.file.testMode ≠ .rndRead then
    fsyncFiles synced (List.range cfg.file.sizes.numFiles) s
  else (true, s)

def fileThreadDone (cfg : AsyncConfig) (synced : Nat → Bool) (answer : Option (List IoEvent))
    (s : State) : Option (Bool × State) :=
  let (done, s) := fsyncEnd cfg synced s
  if done = false then some (false, s)
  else if cfg.file.ioMode = .async ∧ 0 < s.nrequests then fileWait cfg s.nrequests answer s
  else some (true, s)

inductive Action where
  | submitOrWait (type : FileOp) (len : Int) (allocated accepted : Bool)
      (answer : Option (List IoEvent))
  | wait (nreq : Int) (answer : Option (List IoEvent))
  | threadDone (synced : Nat → Bool) (answer : Option (List IoEvent))

def record (call : Call) (result : Bool × State) : State :=
  { result.2 with returned := some (call, result.1) }

def step (cfg : AsyncConfig) (s : State) : Action → Option State
  | .submitOrWait type len allocated accepted answer =>
      (fileSubmitOrWait cfg type len allocated accepted answer s).map (record .submitOrWait)
  | .wait nreq answer => (fileWait cfg nreq answer s).map (record .wait)
  | .threadDone synced answer => (fileThreadDone cfg synced answer s).map (record .threadDone)

def start : State :=
  { nrequests := 0, counters := fun _ => 0, outstanding := 0, submitted := 0, reaped := []
    freed := [], indexed := 0, returned := none }

/-! What the calls are to keep. -/
section Account

/-- What a successful operation adds to a counter. -/
def counted (oper : Oper) (type : CounterType) : UInt64 :=
  match oper.type, type with
  | .fsync, .other | .read, .read | .write, .write => 1
  | .read, .bytesRead | .write, .bytesWritten => UInt64.ofInt oper.len
  | _, _ => 0

/-- `SB_CNT_OTHER` counts the fsyncs at the end as well. -/
structure AccountKept (cfg : AsyncConfig) (s : State) : Prop where
  outstanding : s.submitted = s.nrequests + s.reaped.length
  below : s.returned = some (.submitOrWait, true) → s.nrequests < cfg.backlog
  indexed : s.indexed ≤ cfg.backlog
  freed : s.freed = s.reaped.map IoEvent.oper
  once : s.freed.Nodup
  counters : ∀ type, type ≠ .other → s.counters type =
    ((s.reaped.filter succeeded).map fun event => counted event.oper type).sum
  done : s.returned = some (.threadDone, true) → s.outstanding = 0

/-- All but the calls' results. Operations are numbered as they are submitted. -/
structure Booked (cfg : AsyncConfig) (s : State) : Prop where
  unsigned : s.nrequests < 2 ^ 32
  outstanding : s.submitted = s.nrequests + s.reaped.length
  numbers : ((s.reaped.map IoEvent.oper : Multiset Oper) + s.outstanding).map Oper.number =
    Multiset.range s.submitted
  indexed : s.indexed ≤ cfg.backlog
  freed : s.freed = s.reaped.map IoEvent.oper
  success : ∀ event ∈ s.reaped, succeeded event = true
  counters : ∀ type, type ≠ .other → s.counters type =
    (s.reaped.map fun event => counted event.oper type).sum

variable {cfg : AsyncConfig} {s t : State}

theorem booked_card (booked : Booked cfg s) : s.outstanding.card = s.nrequests := by
  have card := congrArg Multiset.card booked.numbers
  rw [Multiset.card_map, Multiset.card_add, Multiset.card_range, booked.outstanding,
    Multiset.coe_card, List.length_map] at card
  omega

theorem booked_once (booked : Booked cfg s) : s.freed.Nodup := by
  have numbers : ((s.reaped.map IoEvent.oper : Multiset Oper).map Oper.number).Nodup := by
    apply Multiset.nodup_of_le _ (Multiset.nodup_range s.submitted)
    rw [← booked.numbers, Multiset.map_add]
    exact Multiset.le_add_right _ _
  rw [booked.freed]
  exact Multiset.coe_nodup.mp (Multiset.Nodup.of_map Oper.number numbers)

theorem booked_kept (booked : Booked cfg s)
    (below : s.returned = some (.submitOrWait, true) → s.nrequests < cfg.backlog)
    (done : s.returned = some (.threadDone, true) → s.outstanding = 0) : AccountKept cfg s := by
  have all : s.reaped.filter succeeded = s.reaped := List.filter_eq_self.mpr booked.success
  constructor
  case outstanding => exact booked.outstanding
  case below => exact below
  case indexed => exact booked.indexed
  case freed => exact booked.freed
  case once => exact booked_once booked
  case counters =>
    rw [all]
    exact booked.counters
  case done => exact done

theorem count_oper (s : State) (oper : Oper) : s.countOper oper =
    { s with counters := fun type => s.counters type + counted oper type } := by
  have counters : (s.countOper oper).counters =
      fun type => s.counters type + counted oper type := by
    funext type
    unfold State.countOper State.count counted
    cases oper.type <;> cases type <;> simp [Function.update]
  rw [← counters]
  unfold State.countOper
  cases oper.type <;> rfl

/-- What the loop does with the operations before the first that failed. -/
def verified (s : State) (events : List IoEvent) : State :=
  { s with
    nrequests := s.nrequests - events.length
    freed := s.freed ++ events.map IoEvent.oper
    counters := fun type =>
      s.counters type + (events.map fun event => counted event.oper type).sum }

theorem verify_result (events : List IoEvent) (s : State) (unsigned : s.nrequests < 2 ^ 32)
    (enough : events.length ≤ s.nrequests) :
    verify events s = (events.all succeeded, verified s (events.takeWhile succeeded)) := by
  induction events generalizing s with
  | nil => simp [verify, verified]
  | cons event rest ih =>
      cases success : succeeded event with
      | false => simp [verify, verified, success]
      | true =>
          rw [List.length_cons] at enough
          have one : (s.nrequests + 2 ^ 32 - 1) % 2 ^ 32 = s.nrequests - 1 := by omega
          simp only [verify, success, ↓reduceIte, one, count_oper]
          rw [ih _ (by simp only; omega) (by simp only; omega)]
          simp [verified, success, Nat.sub_sub, Nat.add_comm, add_assoc]

theorem submit_booked (booked : Booked cfg s) (type : FileOp) (len : Int)
    (room : s.nrequests + 1 < 2 ^ 32) : Booked cfg (submit s type len) := by
  have next : (submit s type len).nrequests = s.nrequests + 1 := Nat.mod_eq_of_lt room
  have outstanding := booked.outstanding
  constructor
  case unsigned => exact next ▸ room
  case outstanding =>
    rw [next]
    simp only [submit]
    omega
  case numbers =>
    simp only [submit, Multiset.add_cons, Multiset.map_cons, booked.numbers, Multiset.range_succ]
  case indexed => exact booked.indexed
  case freed => exact booked.freed
  case success => exact booked.success
  case counters => exact booked.counters

theorem delivered_enough (booked : Booked cfg s) (nreq : Int) (events : List IoEvent)
    (delivered : Delivered cfg s nreq events) : events.length ≤ s.nrequests := by
  have card := Multiset.card_le_card delivered.2.2
  rwa [Multiset.coe_card, List.length_map, booked_card booked] at card

/-- A batch without a failure is accounted for. -/
theorem reap_booked (booked : Booked cfg s) (nreq : Int) (events : List IoEvent)
    (delivered : Delivered cfg s nreq events)
    (success : ∀ event ∈ events, succeeded event = true) :
    Booked cfg (verified (reap s events) events) := by
  have enough := delivered_enough booked nreq events delivered
  have unsigned := booked.unsigned
  have outstanding := booked.outstanding
  constructor
  case unsigned =>
    simp only [verified, reap]
    omega
  case outstanding =>
    simp only [verified, reap, List.length_append]
    omega
  case numbers =>
    simp only [verified, reap, List.map_append, ← Multiset.coe_add, add_assoc]
    rw [add_tsub_cancel_of_le delivered.2.2]
    exact booked.numbers
  case indexed => exact max_le booked.indexed delivered.2.1
  case freed => simp only [verified, reap, booked.freed, List.map_append]
  case success =>
    intro event member
    rcases List.mem_append.mp member with old | new
    · exact booked.success event old
    · exact success event new
  case counters =>
    intro type counted
    simp only [verified, reap, booked.counters type counted, List.map_append, List.sum_append]

/-- With a failure in the batch, the count stays above what is outstanding. -/
theorem failed_not_outstanding (booked : Booked cfg s) (nreq : Int) (events : List IoEvent)
    (delivered : Delivered cfg s nreq events) (failed : events.all succeeded = false) :
    s.submitted ≠ (verified (reap s events) (events.takeWhile succeeded)).nrequests +
      (s.reaped ++ events).length := by
  have enough := delivered_enough booked nreq events delivered
  have outstanding := booked.outstanding
  have fewer : (events.takeWhile succeeded).length < events.length := by
    by_contra all
    have same := (List.takeWhile_prefix succeeded (l := events)).eq_of_length_le (by omega)
    rw [List.all_eq_true.mpr (List.takeWhile_eq_self_iff.mp same)] at failed
    cases failed
  simp only [verified, reap, List.length_append]
  omega

theorem file_wait_cases (booked : Booked cfg s) (nreq : Int) (answer : Option (List IoEvent))
    (result : Bool × State) (taken : fileWait cfg nreq answer s = some result) :
    result = (false, s) ∧ (answer = none ∨ answer = some []) ∨
      ∃ events, answer = some events ∧ Delivered cfg s nreq events ∧
        result = (events.all succeeded, verified (reap s events) (events.takeWhile succeeded)) := by
  match answer with
  | none => exact Or.inl ⟨(Option.some.inj taken).symm, Or.inl rfl⟩
  | some [] => exact Or.inl ⟨(Option.some.inj taken).symm, Or.inr rfl⟩
  | some (event :: rest) =>
      obtain ⟨delivered, taken⟩ := Option.ite_none_right_eq_some.mp taken
      have enough := delivered_enough booked nreq (event :: rest) delivered
      rw [verify_result (event :: rest) (reap s (event :: rest)) booked.unsigned enough] at taken
      exact Or.inr ⟨event :: rest, rfl, delivered, (Option.some.inj taken).symm⟩

def NoneFailed (answer : Option (List IoEvent)) : Prop :=
  ∀ events, answer = some events → ∀ event ∈ events, succeeded event = true

/-- `file_wait` when no operation of its batch failed. -/
theorem wait_succeeds (booked : Booked cfg s) (nreq : Int) (answer : Option (List IoEvent))
    (result : Bool × State) (taken : fileWait cfg nreq answer s = some result)
    (success : NoneFailed answer) :
    result = (false, s) ∨ ∃ events, answer = some events ∧ Delivered cfg s nreq events ∧
      result = (true, verified (reap s events) events) := by
  rcases file_wait_cases booked nreq answer result taken with ⟨same, _⟩ | ⟨events, asked, rest⟩
  · exact Or.inl same
  · obtain ⟨delivered, same⟩ := rest
    have all := success events asked
    rw [List.all_eq_true.mpr all, List.takeWhile_eq_self_iff.mpr all] at same
    exact Or.inr ⟨events, asked, delivered, same⟩

theorem wait_booked (booked : Booked cfg s) (nreq : Int) (answer : Option (List IoEvent))
    (result : Bool × State) (taken : fileWait cfg nreq answer s = some result)
    (success : NoneFailed answer) : Booked cfg result.2 := by
  rcases wait_succeeds booked nreq answer result taken success with
    rfl | ⟨events, asked, delivered, rfl⟩
  · exact booked
  · exact reap_booked booked nreq events delivered (success events asked)

theorem wait_needs (booked : Booked cfg s) (nreq : Int) (answer : Option (List IoEvent))
    (result : Bool × State) (taken : fileWait cfg nreq answer s = some result)
    (outstanding : result.2.submitted = result.2.nrequests + result.2.reaped.length) :
    NoneFailed answer := by
  intro events asked
  rcases file_wait_cases booked nreq answer result taken with
    ⟨_, none_ | empty⟩ | ⟨given, same, delivered, rfl⟩
  · cases none_.symm.trans asked
  · obtain rfl := Option.some.inj (empty.symm.trans asked)
    exact fun event member => absurd member List.not_mem_nil
  · obtain rfl := Option.some.inj (same.symm.trans asked)
    cases success : given.all succeeded with
    | true => exact List.all_eq_true.mp success
    | false =>
        exact absurd outstanding (failed_not_outstanding booked nreq given delivered success)

/-- The fsyncs at the end touch `SB_CNT_OTHER` only. -/
theorem fsync_files_booked (synced : Nat → Bool) (files : List Nat) (booked : Booked cfg s) :
    Booked cfg (fsyncFiles synced files s).2 ∧
      (fsyncFiles synced files s).2.nrequests = s.nrequests ∧
      (fsyncFiles synced files s).2.outstanding = s.outstanding := by
  induction files generalizing s with
  | nil => exact ⟨booked, rfl, rfl⟩
  | cons file rest ih =>
      unfold fsyncFiles
      split
      · apply ih
        refine { booked with counters := fun type other => ?_ }
        simp only [State.count, Function.update_of_ne other]
        exact booked.counters type other
      · exact ⟨booked, rfl, rfl⟩

theorem fsync_end_booked (synced : Nat → Bool) (booked : Booked cfg s) :
    Booked cfg (fsyncEnd cfg synced s).2 ∧
      (fsyncEnd cfg synced s).2.nrequests = s.nrequests ∧
      (fsyncEnd cfg synced s).2.outstanding = s.outstanding := by
  unfold fsyncEnd
  split
  · exact fsync_files_booked synced _ booked
  · exact ⟨booked, rfl, rfl⟩

end Account

/-! Which calls are accounted for. -/
section Calls
variable {cfg : AsyncConfig} {s t : State}

/-- No operation of a batch failed, the count has room, and a wait at the backlog brings the
count below it. -/
def Accountable (cfg : AsyncConfig) (s : State) : Action → Prop
  | .submitOrWait _ _ allocated accepted answer =>
      allocated = true ∧ accepted = true → s.nrequests + 1 < 2 ^ 32 ∧
        (cfg.backlog ≤ s.nrequests + 1 → NoneFailed answer ∧
          ∀ events, answer = some events → events ≠ [] →
            s.nrequests + 1 < cfg.backlog + events.length)
  | .wait _ answer => NoneFailed answer
  | .threadDone synced answer =>
      (fsyncEnd cfg synced s).1 = true ∧ 0 < s.nrequests → NoneFailed answer

structure Tracked (cfg : AsyncConfig) (s : State) : Prop where
  booked : Booked cfg s
  kept : AccountKept cfg s

/-- The result of a call is history. -/
theorem record_booked (call : Call) (result : Bool × State) (booked : Booked cfg result.2) :
    Booked cfg (record call result) :=
  { booked with }

theorem record_tracked (call : Call) (result : Bool × State) (booked : Booked cfg result.2)
    (below : call = .submitOrWait → result.1 = true → result.2.nrequests < cfg.backlog)
    (done : call = .threadDone → result.1 = true → result.2.outstanding = 0) :
    Tracked cfg (record call result) := by
  refine ⟨record_booked call result booked, booked_kept (record_booked call result booked) ?_ ?_⟩
  · intro returned
    obtain ⟨rfl, success⟩ := Prod.mk.inj (Option.some.inj returned)
    exact below rfl success
  · intro returned
    obtain ⟨rfl, success⟩ := Prod.mk.inj (Option.some.inj returned)
    exact done rfl success

theorem submit_count (room : s.nrequests + 1 < 2 ^ 32) (type : FileOp) (len : Int) :
    (submit s type len).nrequests = s.nrequests + 1 :=
  Nat.mod_eq_of_lt room

theorem submit_tracked (tracked : Tracked cfg s) (type : FileOp) (len : Int)
    (allocated accepted : Bool) (answer : Option (List IoEvent)) (result : Bool × State)
    (accountable : Accountable cfg s (.submitOrWait type len allocated accepted answer))
    (taken : fileSubmitOrWait cfg type len allocated accepted answer s = some result) :
    Tracked cfg (record .submitOrWait result) := by
  unfold fileSubmitOrWait at taken
  split at taken
  case isFalse =>
    obtain rfl := Option.some.inj taken
    exact record_tracked _ _ tracked.booked (fun _ success => by cases success)
      (fun other => by cases other)
  case isTrue submitted =>
    obtain ⟨room, waits⟩ := accountable (by simpa using submitted)
    have booked := submit_booked tracked.booked type len room
    have count := submit_count room type len
    split at taken
    case isTrue below =>
      obtain rfl := Option.some.inj taken
      exact record_tracked _ _ booked (fun _ _ => below) (fun other => by cases other)
    case isFalse full =>
      -- the backlog is full, so at least one request is waited for
      rw [count] at full
      obtain ⟨success, enough⟩ := waits (by omega)
      apply record_tracked _ _ (wait_booked booked 1 answer result taken success)
      · rintro _ returned
        rcases wait_succeeds booked 1 answer result taken success with
          rfl | ⟨events, asked, delivered, rfl⟩
        · cases returned
        · have some_ := delivered.1
          have bound := enough events asked (by rintro rfl; simp at some_)
          have within := delivered_enough booked 1 events delivered
          simp only [verified, reap, count] at within ⊢
          omega
      · exact fun other => by cases other

theorem thread_done_tracked (tracked : Tracked cfg s) (synced : Nat → Bool)
    (answer : Option (List IoEvent)) (result : Bool × State)
    (accountable : Accountable cfg s (.threadDone synced answer))
    (taken : fileThreadDone cfg synced answer s = some result) :
    Tracked cfg (record .threadDone result) := by
  obtain ⟨booked, count, outstanding⟩ := fsync_end_booked synced tracked.booked
  -- the counter says how many are in flight, also after the last `fsync`
  have none_ : (fsyncEnd cfg synced s).2.nrequests = 0 →
      (fsyncEnd cfg synced s).2.outstanding = 0 := by
    intro zero
    rw [← Multiset.card_eq_zero, booked_card booked, zero]
  unfold fileThreadDone at taken
  cases fsynced : (fsyncEnd cfg synced s).1 with
  | false =>
      simp only [fsynced, ↓reduceIte, Option.some.injEq] at taken
      subst taken
      exact record_tracked _ _ booked (fun other => by cases other)
        (fun _ success => by cases success)
  | true =>
      simp only [fsynced, Bool.true_eq_false, ↓reduceIte, cfg.async, true_and] at taken
      split at taken
      case isFalse zero =>
        obtain rfl := Option.some.inj taken
        exact record_tracked _ _ booked (fun other => by cases other)
          (fun _ _ => none_ (by omega))
      case isTrue waits =>
        have success := accountable ⟨fsynced, count ▸ waits⟩
        apply record_tracked _ _ (wait_booked booked _ answer result taken success)
        · exact fun other => by cases other
        · intro _ returned
          rcases wait_succeeds booked _ answer result taken success with
            rfl | ⟨events, asked, delivered, rfl⟩
          · cases returned
          · have all := delivered.1
            simp only [verified, reap]
            rw [← Multiset.card_eq_zero, Multiset.card_sub delivered.2.2, booked_card booked,
              Multiset.coe_card, List.length_map]
            omega

theorem step_tracked (s : State) (a : Action) (t : State) (tracked : Tracked cfg s)
    (accountable : Accountable cfg s a) (taken : step cfg s a = some t) : Tracked cfg t := by
  cases a with
  | submitOrWait type len allocated accepted answer =>
      obtain ⟨result, moved, rfl⟩ := Option.map_eq_some_iff.mp taken
      exact submit_tracked tracked type len allocated accepted answer result accountable moved
  | wait nreq answer =>
      obtain ⟨result, moved, rfl⟩ := Option.map_eq_some_iff.mp taken
      exact record_tracked _ _ (wait_booked tracked.booked nreq answer result moved accountable)
        (fun other => by cases other) (fun other => by cases other)
  | threadDone synced answer =>
      obtain ⟨result, moved, rfl⟩ := Option.map_eq_some_iff.mp taken
      exact thread_done_tracked tracked synced answer result accountable moved

/-- A submission without room is counted as 0, which is below every backlog. -/
theorem submit_needs_room (tracked : Tracked cfg s) (type : FileOp) (len : Int)
    (answer : Option (List IoEvent)) (result : Bool × State)
    (taken : fileSubmitOrWait cfg type len true true answer s = some result)
    (kept : AccountKept cfg (record .submitOrWait result)) : s.nrequests + 1 < 2 ^ 32 := by
  by_contra full
  have unsigned := tracked.booked.unsigned
  have before := tracked.booked.outstanding
  have wrapped : (submit s type len).nrequests = 0 := by
    simp only [submit]
    omega
  simp only [fileSubmitOrWait, Bool.and_self, ↓reduceIte, wrapped, cfg.someBacklog,
    Option.some.injEq] at taken
  subst taken
  have outstanding := kept.outstanding
  simp only [record, submit] at outstanding wrapped
  omega

theorem submit_needs (tracked : Tracked cfg s) (type : FileOp) (len : Int)
    (allocated accepted : Bool) (answer : Option (List IoEvent)) (result : Bool × State)
    (taken : fileSubmitOrWait cfg type len allocated accepted answer s = some result)
    (kept : AccountKept cfg (record .submitOrWait result)) :
    Accountable cfg s (.submitOrWait type len allocated accepted answer) := by
  rintro ⟨rfl, rfl⟩
  have room := submit_needs_room tracked type len answer result taken kept
  have booked := submit_booked tracked.booked type len room
  have count := submit_count room type len
  refine ⟨room, fun full => ?_⟩
  have late : ¬ (submit s type len).nrequests < cfg.backlog := by omega
  simp only [fileSubmitOrWait, Bool.and_self, ↓reduceIte, late] at taken
  have success := wait_needs booked 1 answer result taken kept.outstanding
  refine ⟨success, fun events asked some_ => ?_⟩
  rcases file_wait_cases booked 1 answer result taken with
    ⟨_, none_ | empty⟩ | ⟨given, same, delivered, rfl⟩
  · cases none_.symm.trans asked
  · exact absurd (Option.some.inj (asked.symm.trans empty)) some_
  · obtain rfl := Option.some.inj (same.symm.trans asked)
    have all := success given same
    have below := kept.below (by simpa [record] using all)
    have within := delivered_enough booked 1 given delivered
    simp only [record, verified, reap, count, List.takeWhile_eq_self_iff.mpr all] at below within
    omega

theorem step_accountable (s : State) (a : Action) (t : State) (tracked : Tracked cfg s)
    (taken : step cfg s a = some t) (kept : AccountKept cfg t) : Accountable cfg s a := by
  cases a with
  | submitOrWait type len allocated accepted answer =>
      obtain ⟨result, moved, rfl⟩ := Option.map_eq_some_iff.mp taken
      exact submit_needs tracked type len allocated accepted answer result moved kept
  | wait nreq answer =>
      obtain ⟨result, moved, rfl⟩ := Option.map_eq_some_iff.mp taken
      exact wait_needs tracked.booked nreq answer result moved kept.outstanding
  | threadDone synced answer =>
      obtain ⟨result, moved, rfl⟩ := Option.map_eq_some_iff.mp taken
      rintro ⟨fsynced, some_⟩
      obtain ⟨booked, count, _⟩ := fsync_end_booked synced tracked.booked
      rw [← count] at some_
      simp only [fileThreadDone, fsynced, Bool.true_eq_false, ↓reduceIte, cfg.async, some_,
        true_and] at moved
      exact wait_needs booked _ answer result moved kept.outstanding

theorem start_tracked : Tracked cfg start := by
  have booked : Booked cfg start := by
    constructor
    case unsigned => exact Nat.two_pow_pos 32
    case outstanding => rfl
    case numbers => rfl
    case indexed => exact Nat.zero_le _
    case freed => rfl
    case success => exact fun event member => absurd member List.not_mem_nil
    case counters => exact fun _ _ => rfl
  exact ⟨booked, booked_kept booked (fun returned => by cases returned)
    (fun returned => by cases returned)⟩

theorem account_kept_iff (cfg : AsyncConfig) (schedule : List Action) :
    Always (step cfg) (AccountKept cfg) start schedule ↔
      Guarded (step cfg) (Accountable cfg) start schedule :=
  always_iff_guarded (fun _ tracked => tracked.kept) step_tracked step_accountable start schedule
    start_tracked

end Calls

/-! A read that failed, with another in its batch that did not. -/
section Failed

theorem two_unsigned : 2 < 2 ^ 32 := by decide

def twoAtOnce : AsyncConfig :=
  { file := { tailConfig with ioMode := .async }
    backlog := 2, async := rfl, someBacklog := Nat.two_pos, backlogUnsigned := two_unsigned }

def shortRead : List Action :=
  [.submitOrWait .read 1 true true none,
    .submitOrWait .read 1 true true (some [⟨⟨0, .read, 1⟩, 0⟩, ⟨⟨1, .read, 1⟩, 1⟩])]

theorem short_read_not_accounted : ∃ t, run (step twoAtOnce) start shortRead = some t ∧
    t.outstanding = 0 ∧ t.nrequests = 2 ∧ t.freed = [] ∧ t.counters .read = 0 ∧
    t.reaped.countP succeeded = 1 ∧ ¬ AccountKept twoAtOnce t := by
  refine ⟨_, rfl, by decide, rfl, rfl, rfl, by decide, fun kept => ?_⟩
  exact absurd kept.outstanding (by decide)

end Failed
end PteSysbench.AsyncAccounting
