import PteSysbench.ActionSystem
import PteSysbench.SbRand
import Mathlib.Algebra.Group.Int.Defs
import Mathlib.Logic.Function.Basic

/-!
The tests of sb_mutex.c and sb_threads.c, run by any threads. Their options are `int`s
that are stored in `unsigned int`s; `malloc` says which sizes give memory.
-/

namespace PteSysbench.MutexThreads

open ActionSystem SbRand

/-- An `int`. -/
abbrev CInt := {n : Int // -2 ^ 31 ≤ n ∧ n < 2 ^ 31}

/-- An `int` stored in an `unsigned int`. -/
def unsigned (value : CInt) : Nat := (value.val % 2 ^ 32).toNat

theorem unsigned_pos {value : CInt} (positive : 0 < value.val) :
    (unsigned value : Int) = value.val := by
  have bounds := value.property
  rw [unsigned, Int.emod_eq_of_lt (by omega) (by omega), Int.toNat_of_nonneg (by omega)]

theorem unsigned_eq_zero_iff (value : CInt) : unsigned value = 0 ↔ value.val = 0 := by
  have bounds := value.property
  rw [unsigned]
  omega

theorem unsigned_lt (value : CInt) : unsigned value < 2 ^ 32 := by
  rw [unsigned]
  omega

/-- `sizeof` of `thread_lock` and of `pthread_mutex_t`. -/
structure Sizes where
  threadLock : Nat
  mutex : Nat
  threadLockPos : 0 < threadLock
  threadLockSmall : threadLock < 2 ^ 32
  mutexPos : 0 < mutex
  mutexSmall : mutex < 2 ^ 32

/-- The elements of an array for which `malloc` is asked in a `size_t`. -/
def elements (count size : Nat) : Nat := count * size % 2 ^ 64 / size

/-- The product does not wrap. -/
theorem elements_eq {count size : Nat} (few : count < 2 ^ 32) (positive : 0 < size)
    (small : size < 2 ^ 32) : elements count size = count := by
  have product : count * size < 2 ^ 32 * 2 ^ 32 := Nat.mul_lt_mul'' few small
  have fits : count * size < 2 ^ 64 := by omega
  rw [elements, Nat.mod_eq_of_lt fits, Nat.mul_div_cancel _ positive]

/-! sb_mutex.c. -/
section Mutex

/-- The options, and the size of the array `thread_locks`. -/
structure MutexTest where
  mutexNum : Nat
  mutexLoops : Nat
  mutexLocks : Nat
  threadLocks : Nat
  deriving DecidableEq, Repr

def mutexInit (sizes : Sizes) (malloc : Nat → Bool) (num loops locks : CInt) :
    Except String MutexTest :=
  if malloc (unsigned num * sizes.threadLock % 2 ^ 64) then
    .ok {
      mutexNum := unsigned num
      mutexLoops := unsigned loops
      mutexLocks := unsigned locks
      threadLocks := elements (unsigned num) sizes.threadLock }
  else .error "Memory allocation failure!"

/-- `sb_mutex_request_t`. The empty loops change nothing. -/
structure Request where
  nlocks : Nat
  nloops : Nat
  deriving DecidableEq, Repr

/-- Where a thread is. It stops after an event of type `SB_REQ_TYPE_NULL`. -/
inductive Place where
  | idle
  | running (request : Request)
  | locked (request : Request) (currentLock : Nat)
  | finished
  deriving DecidableEq, Repr

def Place.request : Place → Option Request
  | .running request => some request
  | .locked request _ => some request
  | _ => none

variable {Thread : Type*}

/-- `indexed`, `pairs` and `performed` are history: the elements used from `mutex_init` on,
the locks released in each thread's event so far, and in every event that has ended. -/
structure MutexState (Thread : Type*) where
  tlsCounter : Thread → Int
  place : Thread → Place
  owner : Nat → Option Thread
  globalVar : Nat
  indexed : List Nat
  pairs : Thread → Nat
  performed : List Nat

inductive MutexAction (Thread : Type*) where
  | nextEvent (thread : Thread)
  | lock (thread : Thread) (draw : UInt64)
  | unlock (thread : Thread)

def mutexStart (test : MutexTest) : MutexState Thread :=
  { tlsCounter := fun _ => 0, place := fun _ => .idle, owner := fun _ => none, globalVar := 0
    indexed := List.range test.mutexNum, pairs := fun _ => 0, performed := [] }

variable [DecidableEq Thread]

def mutexNextEvent (test : MutexTest) (state : MutexState Thread) (thread : Thread) :
    MutexState Thread :=
  let counted := { state with
    tlsCounter := Function.update state.tlsCounter thread (state.tlsCounter thread + 1) }
  if 0 < state.tlsCounter thread then
    { counted with place := Function.update state.place thread .finished }
  else
    { counted with
      place := Function.update state.place thread (.running ⟨test.mutexLocks, test.mutexLoops⟩)
      pairs := Function.update state.pairs thread 0 }

/-- `mutex_execute_event` up to the lock, which waits for its owner. -/
def mutexLock (test : MutexTest) (state : MutexState Thread) (thread : Thread)
    (request : Request) (draw : UInt64) : Option (MutexState Thread) :=
  -- `mutex_num - 1` of an `unsigned int`
  let currentLock := sbRandUniformRounded draw 0 ((test.mutexNum + 2 ^ 32 - 1) % 2 ^ 32)
  if state.owner currentLock = none then
    some { state with
      place := Function.update state.place thread (.locked request currentLock)
      owner := Function.update state.owner currentLock (some thread)
      indexed := currentLock :: state.indexed }
  else none

/-- From the lock to the test at the end of the loop. -/
def mutexUnlock (state : MutexState Thread) (thread : Thread) (request : Request)
    (currentLock : Nat) : MutexState Thread :=
  -- the decrement is before the test, also of a counter that is 0
  let nlocks := (request.nlocks + 2 ^ 32 - 1) % 2 ^ 32
  let pairs := state.pairs thread + 1
  let unlocked := { state with
    owner := Function.update state.owner currentLock none
    globalVar := (state.globalVar + 1) % 2 ^ 32
    pairs := Function.update state.pairs thread pairs }
  if 0 < nlocks then
    { unlocked with
      place := Function.update state.place thread (.running { request with nlocks }) }
  else
    { unlocked with
      place := Function.update state.place thread .idle
      performed := pairs :: state.performed }

def mutexStep (test : MutexTest) (state : MutexState Thread) :
    MutexAction Thread → Option (MutexState Thread)
  | .nextEvent thread =>
      if state.place thread = .idle then some (mutexNextEvent test state thread) else none
  | .lock thread draw =>
      match state.place thread with
      | .running request => mutexLock test state thread request draw
      | _ => none
  | .unlock thread =>
      match state.place thread with
      | .locked request currentLock => some (mutexUnlock state thread request currentLock)
      | _ => none

/-- Only elements of the array are used, and no event has more or fewer pairs of lock and
unlock than the option says. -/
structure MutexSafe (test : MutexTest) (mutexLocks : CInt) (state : MutexState Thread) :
    Prop where
  indexed : ∀ i ∈ state.indexed, i < test.threadLocks
  performed : ∀ pairs ∈ state.performed, (pairs : Int) = mutexLocks.val
  running : ∀ thread, (state.place thread).request.isSome = true →
    (state.pairs thread : Int) ≤ mutexLocks.val

end Mutex

/-! sb_threads.c. -/
section Threads

structure ThreadsTest where
  threadYields : Nat
  threadLocks : Nat
  testMutexes : Nat
  deriving DecidableEq, Repr

/-- `threads_init`, which always succeeds, and `threads_prepare`. -/
def threadsPrepare (sizes : Sizes) (malloc : Nat → Bool) (yields locks : CInt) :
    Except String ThreadsTest :=
  if malloc (unsigned locks * sizes.mutex % 2 ^ 64) then
    .ok {
      threadYields := unsigned yields
      threadLocks := unsigned locks
      testMutexes := elements (unsigned locks) sizes.mutex }
  else .error "Memory allocation failure!"

/-- `yielding` is between two turns of the loop of `threads_execute_event`. -/
inductive ThreadsPlace where
  | idle
  | yielding (lockNum i : Nat)
  | locked (lockNum i : Nat)
  deriving DecidableEq, Repr

variable {Thread : Type*}

/-- `indexed` is history, from `threads_prepare` on. Nothing happens after a division by
zero. -/
structure ThreadsState (Thread : Type*) where
  reqPerformed : Nat
  place : Thread → ThreadsPlace
  owner : Nat → Option Thread
  indexed : List Nat
  dividedByZero : Bool

inductive ThreadsAction (Thread : Type*) where
  | nextEvent (thread : Thread)
  | lock (thread : Thread)
  | unlock (thread : Thread)
  | finish (thread : Thread)

/-- The counter is 0 at first, and any number once it has wrapped. -/
def threadsStart (test : ThreadsTest) (reqPerformed : Nat) : ThreadsState Thread :=
  { reqPerformed, place := fun _ => .idle, owner := fun _ => none
    indexed := List.range test.threadLocks, dividedByZero := false }

variable [DecidableEq Thread]

def threadsNextEvent (test : ThreadsTest) (state : ThreadsState Thread) (thread : Thread) :
    ThreadsState Thread :=
  let counted := { state with reqPerformed := (state.reqPerformed + 1) % 2 ^ 32 }
  if test.threadLocks = 0 then { counted with dividedByZero := true }
  else
    { counted with
      place := Function.update state.place thread
        (.yielding (state.reqPerformed % test.threadLocks) 0) }

def threadsStep (test : ThreadsTest) (state : ThreadsState Thread) :
    ThreadsAction Thread → Option (ThreadsState Thread)
  | .nextEvent thread =>
      if state.place thread = .idle ∧ state.dividedByZero = false then
        some (threadsNextEvent test state thread)
      else none
  | .lock thread =>
      match state.place thread with
      | .yielding lockNum i =>
          if i < test.threadYields ∧ state.owner lockNum = none ∧ state.dividedByZero = false then
            some { state with
              place := Function.update state.place thread (.locked lockNum i)
              owner := Function.update state.owner lockNum (some thread)
              indexed := lockNum :: state.indexed }
          else none
      | _ => none
  | .unlock thread =>
      match state.place thread with
      | .locked lockNum i =>
          if state.dividedByZero = false then
            some { state with
              place := Function.update state.place thread (.yielding lockNum (i + 1))
              owner := Function.update state.owner lockNum none }
          else none
      | _ => none
  | .finish thread =>
      match state.place thread with
      | .yielding _ i =>
          if test.threadYields ≤ i ∧ state.dividedByZero = false then
            some { state with place := Function.update state.place thread .idle }
          else none
      | _ => none

structure ThreadsSafe (test : ThreadsTest) (state : ThreadsState Thread) : Prop where
  indexed : ∀ i ∈ state.indexed, i < test.testMutexes
  divided : state.dividedByZero = false

end Threads

/-! Runs of the mutex test. -/
section MutexRuns
variable {Thread : Type*} [DecidableEq Thread] {test : MutexTest} {state after : MutexState Thread}
  {thread : Thread} {request : Request}

/-- In every event the locks left and the pairs so far make up what was asked for. -/
def Counted (locks : Nat) (place : Thread → Place) (pairs : Thread → Nat) : Prop :=
  ∀ thread request, (place thread).request = some request →
    0 < request.nlocks ∧ request.nlocks + pairs thread = locks

structure MutexInv (test : MutexTest) (state : MutexState Thread) : Prop where
  indexed : ∀ i ∈ state.indexed, i < test.threadLocks
  performed : ∀ pairs ∈ state.performed, pairs = test.mutexLocks
  counted : Counted test.mutexLocks state.place state.pairs

/-- Only one thread moves. -/
theorem counted_moves {locks n : Nat} {place : Thread → Place} {pairs : Thread → Nat} {next : Place}
    (counted : Counted locks place pairs)
    (new : ∀ request, next.request = some request →
      0 < request.nlocks ∧ request.nlocks + n = locks) :
    Counted locks (Function.update place thread next) (Function.update pairs thread n) := by
  intro other request there
  by_cases same : other = thread
  · subst same
    rw [Function.update_self] at there ⊢
    exact new request there
  · rw [Function.update_of_ne same] at there ⊢
    exact counted other request there

theorem counted_place {locks : Nat} {place : Thread → Place} {pairs : Thread → Nat} {next : Place}
    (counted : Counted locks place pairs)
    (new : ∀ request, next.request = some request →
      0 < request.nlocks ∧ request.nlocks + pairs thread = locks) :
    Counted locks (Function.update place thread next) pairs := by
  have moved : Counted locks (Function.update place thread next)
      (Function.update pairs thread (pairs thread)) := counted_moves counted new
  rwa [Function.update_eq_self] at moved

/-- What the options have to be. -/
structure MutexTest.Proper (test : MutexTest) : Prop where
  some_ : 0 < test.mutexNum
  fits : test.mutexNum ≤ test.threadLocks
  numSmall : test.mutexNum < 2 ^ 32
  locks : 0 < test.mutexLocks
  locksSmall : test.mutexLocks < 2 ^ 32

theorem mutex_next_inv (proper : test.Proper) (inv : MutexInv test state) :
    MutexInv test (mutexNextEvent test state thread) := by
  obtain ⟨indexed, performed, counted⟩ := inv
  rw [mutexNextEvent]
  dsimp only
  split
  next second => exact ⟨indexed, performed, counted_place counted nofun⟩
  next first =>
    refine ⟨indexed, performed, counted_moves counted fun request asked => ?_⟩
    obtain rfl := Option.some.inj asked
    exact ⟨proper.locks, Nat.add_zero _⟩

theorem mutex_lock_inv (proper : test.Proper) (inv : MutexInv test state) {draw : UInt64}
    (here : (state.place thread).request = some request)
    (taken : mutexLock test state thread request draw = some after) : MutexInv test after := by
  obtain ⟨indexed, performed, counted⟩ := inv
  obtain ⟨some_, fits, numSmall, -, -⟩ := proper
  rw [mutexLock] at taken
  split at taken
  next free =>
    obtain rfl := Option.some.inj taken
    refine ⟨fun i member => ?_, performed, counted_place counted fun same asked => ?_⟩
    · rcases List.mem_cons.mp member with rfl | earlier
      · -- the bound of the draw does not wrap, as there is a mutex
        have last : (test.mutexNum + 2 ^ 32 - 1) % 2 ^ 32 = test.mutexNum - 1 := by omega
        have bound :=
          (uniform_rounded_inside draw 0 (test.mutexNum - 1) (by decide) (by omega) (by omega)).2
        rw [last]
        omega
      · exact indexed i earlier
    · obtain rfl := Option.some.inj asked
      exact counted thread request here
  next held => cases taken

theorem mutex_unlock_inv (proper : test.Proper) (inv : MutexInv test state) {currentLock : Nat}
    (here : (state.place thread).request = some request) :
    MutexInv test (mutexUnlock state thread request currentLock) := by
  obtain ⟨indexed, performed, counted⟩ := inv
  obtain ⟨left, total⟩ := counted thread request here
  have small := proper.locksSmall
  -- a lock is left when the loop is entered, so that the decrement does not wrap
  have fewer : (request.nlocks + 2 ^ 32 - 1) % 2 ^ 32 = request.nlocks - 1 := by omega
  rw [mutexUnlock, fewer]
  dsimp only
  split
  next more =>
    refine ⟨indexed, performed, counted_moves counted fun next asked => ?_⟩
    obtain rfl := Option.some.inj asked
    exact ⟨more, by dsimp only; omega⟩
  next last =>
    refine ⟨indexed, fun pairs member => ?_, counted_moves counted nofun⟩
    rcases List.mem_cons.mp member with rfl | earlier
    · omega
    · exact performed pairs earlier

theorem mutex_step_inv (proper : test.Proper) (action : MutexAction Thread)
    (inv : MutexInv test state) (taken : mutexStep test state action = some after) :
    MutexInv test after := by
  cases action with
  | nextEvent thread =>
      rw [mutexStep] at taken
      split at taken
      · obtain rfl := Option.some.inj taken
        exact mutex_next_inv proper inv
      · cases taken
  | lock thread draw =>
      rw [mutexStep] at taken
      split at taken
      next request place => exact mutex_lock_inv proper inv (by rw [place]; rfl) taken
      next => cases taken
  | unlock thread =>
      rw [mutexStep] at taken
      split at taken
      next request currentLock place =>
        obtain rfl := Option.some.inj taken
        exact mutex_unlock_inv proper inv (by rw [place]; rfl)
      next => cases taken

theorem mutex_run_inv (proper : test.Proper) (schedule : List (MutexAction Thread)) :
    Always (mutexStep test) (MutexInv test) (mutexStart test) schedule := by
  refine invariant_keeps (fun _ action _ inv taken => mutex_step_inv proper action inv taken) _
    schedule ⟨fun i member => ?_, nofun, nofun⟩
  exact Nat.lt_of_lt_of_le (List.mem_range.mp member) proper.fits
end MutexRuns

/-! Runs of the threads test. -/
section ThreadsRuns
variable {Thread : Type*} [DecidableEq Thread] {test : ThreadsTest}
  {state after : ThreadsState Thread}

structure ThreadsInv (test : ThreadsTest) (state : ThreadsState Thread) : Prop where
  safe : ThreadsSafe test state
  chosen : ∀ thread lockNum i, state.place thread = .yielding lockNum i ∨
    state.place thread = .locked lockNum i → lockNum < test.testMutexes

theorem chosen_moves {place : Thread → ThreadsPlace} {thread : Thread} {next : ThreadsPlace}
    {bound : Nat} (chosen : ∀ thread lockNum i, place thread = .yielding lockNum i ∨
      place thread = .locked lockNum i → lockNum < bound)
    (new : ∀ lockNum i, next = .yielding lockNum i ∨ next = .locked lockNum i → lockNum < bound) :
    ∀ other lockNum i, Function.update place thread next other = .yielding lockNum i ∨
      Function.update place thread next other = .locked lockNum i → lockNum < bound := by
  intro other lockNum i there
  by_cases same : other = thread
  · subst same
    rw [Function.update_self] at there
    exact new lockNum i there
  · rw [Function.update_of_ne same] at there
    exact chosen other lockNum i there

theorem chosen_yielding {lockNum i bound : Nat} (inside : lockNum < bound) :
    ∀ other j, ThreadsPlace.yielding lockNum i = .yielding other j ∨
      ThreadsPlace.yielding lockNum i = .locked other j → other < bound := by
  intro other j there
  rcases there with same | same
  · cases same
    exact inside
  · cases same

theorem chosen_locked {lockNum i bound : Nat} (inside : lockNum < bound) :
    ∀ other j, ThreadsPlace.locked lockNum i = .yielding other j ∨
      ThreadsPlace.locked lockNum i = .locked other j → other < bound := by
  intro other j there
  rcases there with same | same
  · cases same
  · cases same
    exact inside

theorem threads_next_inv {thread : Thread} (some_ : 0 < test.threadLocks)
    (fits : test.threadLocks ≤ test.testMutexes) (inv : ThreadsInv test state) :
    ThreadsInv test (threadsNextEvent test state thread) := by
  obtain ⟨⟨indexed, divided⟩, chosen⟩ := inv
  have inside : state.reqPerformed % test.threadLocks < test.testMutexes :=
    Nat.lt_of_lt_of_le (Nat.mod_lt _ some_) fits
  rw [threadsNextEvent, if_neg (Nat.ne_of_gt some_)]
  exact ⟨⟨indexed, divided⟩, chosen_moves chosen (chosen_yielding inside)⟩

/-- The lock is taken and given back by the number that was chosen with the event. -/
theorem threads_step_inv (some_ : 0 < test.threadLocks) (fits : test.threadLocks ≤ test.testMutexes)
    (action : ThreadsAction Thread) (inv : ThreadsInv test state)
    (taken : threadsStep test state action = some after) : ThreadsInv test after := by
  cases action with
  | nextEvent thread =>
      rw [threadsStep] at taken
      split at taken
      · obtain rfl := Option.some.inj taken
        exact threads_next_inv some_ fits inv
      · cases taken
  | lock thread =>
      obtain ⟨⟨indexed, divided⟩, chosen⟩ := inv
      rw [threadsStep] at taken
      split at taken
      next lockNum i place =>
        have inside := chosen thread lockNum i (.inl place)
        split at taken
        · obtain rfl := Option.some.inj taken
          refine ⟨⟨fun j member => ?_, divided⟩, chosen_moves chosen (chosen_locked inside)⟩
          rcases List.mem_cons.mp member with rfl | earlier
          · exact inside
          · exact indexed j earlier
        · cases taken
      next => cases taken
  | unlock thread =>
      obtain ⟨⟨indexed, divided⟩, chosen⟩ := inv
      rw [threadsStep] at taken
      split at taken
      next lockNum i place =>
        have inside := chosen thread lockNum i (.inr place)
        rw [if_pos divided] at taken
        obtain rfl := Option.some.inj taken
        exact ⟨⟨indexed, divided⟩, chosen_moves chosen (chosen_yielding inside)⟩
      next => cases taken
  | finish thread =>
      obtain ⟨⟨indexed, divided⟩, chosen⟩ := inv
      rw [threadsStep] at taken
      split at taken
      next lockNum i place =>
        split at taken
        · obtain rfl := Option.some.inj taken
          exact ⟨⟨indexed, divided⟩, chosen_moves chosen nofun⟩
        · cases taken
      next => cases taken

theorem threads_run_inv (some_ : 0 < test.threadLocks) (fits : test.threadLocks ≤ test.testMutexes)
    (reqPerformed : Nat) (schedule : List (ThreadsAction Thread)) :
    Always (threadsStep test) (ThreadsInv test) (threadsStart test reqPerformed) schedule := by
  refine invariant_keeps (fun _ action _ inv taken => threads_step_inv some_ fits action inv taken)
    _ schedule ⟨⟨fun i member => ?_, rfl⟩, fun thread lockNum i there => ?_⟩
  · exact Nat.lt_of_lt_of_le (List.mem_range.mp member) fits
  · rcases there with same | same <;> cases same
end ThreadsRuns

/-! The options. -/
section Options
variable {Thread : Type*} [DecidableEq Thread] {test : MutexTest} {sizes : Sizes}
  {malloc : Nat → Bool} {num loops locks : CInt}

theorem mutex_accepted (accepted : mutexInit sizes malloc num loops locks = .ok test) :
    test = { mutexNum := unsigned num, mutexLoops := unsigned loops
             mutexLocks := unsigned locks, threadLocks := unsigned num } := by
  rw [mutexInit] at accepted
  split at accepted
  · obtain rfl := Except.ok.inj accepted
    rw [elements_eq (unsigned_lt num) sizes.threadLockPos sizes.threadLockSmall]
  · cases accepted

theorem threads_accepted {test : ThreadsTest} {yields : CInt}
    (accepted : threadsPrepare sizes malloc yields locks = .ok test) :
    test = { threadYields := unsigned yields, threadLocks := unsigned locks
             testMutexes := unsigned locks } := by
  rw [threadsPrepare] at accepted
  split at accepted
  · obtain rfl := Except.ok.inj accepted
    rw [elements_eq (unsigned_lt locks) sizes.mutexPos sizes.mutexSmall]
  · cases accepted

omit [DecidableEq Thread] in
theorem mutex_safe_of_inv {state : MutexState Thread} (positive : 0 < locks.val)
    (same : test.mutexLocks = unsigned locks) (inv : MutexInv test state) :
    MutexSafe test locks state := by
  obtain ⟨indexed, performed, counted⟩ := inv
  have value := unsigned_pos positive
  refine ⟨indexed, fun pairs member => ?_, fun thread running => ?_⟩
  · rw [performed pairs member, same, value]
  · obtain ⟨request, there⟩ := Option.isSome_iff_exists.mp running
    have total := (counted thread request there).2
    omega

/-- The least draw takes the first element, whether there is one or not. -/
theorem draw_zero (b : Nat) : sbRandUniformRounded 0 0 b = 0 := by
  simp [sbRandUniformRounded, roundedSum, sbRandUniformDouble]

/-- The first lock of a first event. -/
theorem mutex_reaches_locked (test : MutexTest) (worker : Thread) :
    ∃ state, Reaches (mutexStep test) (mutexStart test) state ∧
      state.place worker = .locked ⟨test.mutexLocks, test.mutexLoops⟩ 0 ∧
      0 ∈ state.indexed ∧ state.pairs worker = 0 := by
  have first : mutexStep test (mutexStart test) (.nextEvent worker) =
      some (mutexNextEvent test (mutexStart test) worker) := by
    rw [mutexStep]
    exact if_pos rfl
  have place : (mutexNextEvent test (mutexStart test) worker).place worker =
      .running ⟨test.mutexLocks, test.mutexLoops⟩ := Function.update_self ..
  have pairs : (mutexNextEvent test (mutexStart test) worker).pairs worker = 0 :=
    Function.update_self ..
  have second : mutexStep test (mutexNextEvent test (mutexStart test) worker) (.lock worker 0) =
      some { mutexNextEvent test (mutexStart test) worker with
        place := Function.update (mutexNextEvent test (mutexStart test) worker).place worker
          (.locked ⟨test.mutexLocks, test.mutexLoops⟩ 0)
        owner := Function.update (mutexNextEvent test (mutexStart test) worker).owner 0
          (some worker)
        indexed := 0 :: (mutexNextEvent test (mutexStart test) worker).indexed } := by
    simp only [mutexStep, place, mutexLock, draw_zero]
    exact if_pos rfl
  exact ⟨_, reaches_trans (reaches_step _ first) (reaches_step _ second),
    Function.update_self .., List.mem_cons_self, pairs⟩

theorem unlock_goes_on (state : MutexState Thread) (worker : Thread) (request : Request)
    (currentLock : Nat) {nlocks : Nat} (fewer : (request.nlocks + 2 ^ 32 - 1) % 2 ^ 32 = nlocks)
    (left : 0 < nlocks) :
    ((mutexUnlock state worker request currentLock).place worker).request.isSome = true ∧
      (mutexUnlock state worker request currentLock).pairs worker = state.pairs worker + 1 := by
  rw [mutexUnlock, fewer]
  simp only [if_pos left, Function.update_self, Place.request, Option.isSome_some, and_self]

theorem mutex_locks_needed (worker : Thread) (same : test.mutexLocks = unsigned locks)
    (safe : ∀ schedule, Always (mutexStep test) (MutexSafe test locks)
      (mutexStart test : MutexState Thread) schedule) : 0 < locks.val := by
  by_contra none_
  obtain ⟨state, reached, place, -, pairs⟩ := mutex_reaches_locked test worker
  have third : mutexStep test state (.unlock worker) =
      some (mutexUnlock state worker ⟨test.mutexLocks, test.mutexLoops⟩ 0) := by
    rw [mutexStep, place]
  have good := good_of_reaches safe (reaches_trans reached (reaches_step _ third))
  have bounds := locks.property
  -- the counter wraps below 0, or was taken from a negative number
  have left : 0 < (test.mutexLocks + 2 ^ 32 - 1) % 2 ^ 32 := by
    rw [same, unsigned]
    omega
  obtain ⟨running, one⟩ :=
    unlock_goes_on state worker ⟨test.mutexLocks, test.mutexLoops⟩ 0 rfl left
  have again := good.running worker running
  rw [one, pairs] at again
  omega

theorem mutex_safe_iff (worker : Thread)
    (accepted : mutexInit sizes malloc num loops locks = .ok test) :
    (∀ schedule, Always (mutexStep test) (MutexSafe test locks)
        (mutexStart test : MutexState Thread) schedule) ↔ num.val ≠ 0 ∧ 0 < locks.val := by
  have built := mutex_accepted accepted
  have numSmall := unsigned_lt num
  have locksSmall := unsigned_lt locks
  have same : test.mutexLocks = unsigned locks := by rw [built]
  constructor
  · intro safe
    refine ⟨fun zero => ?_, mutex_locks_needed worker same safe⟩
    -- the first lock uses element 0 of an array without elements
    obtain ⟨state, reached, -, first, -⟩ := mutex_reaches_locked test worker
    have inside := (good_of_reaches safe reached).indexed 0 first
    rw [built] at inside
    rw [(unsigned_eq_zero_iff num).mpr zero] at inside
    exact Nat.lt_irrefl 0 inside
  · rintro ⟨some_, positive⟩ schedule
    have value := unsigned_pos positive
    have proper : test.Proper := by
      rw [built]
      refine ⟨Nat.pos_of_ne_zero fun zero => some_ ((unsigned_eq_zero_iff num).mp zero),
        Nat.le_refl _, numSmall, ?_, locksSmall⟩
      show 0 < unsigned locks
      omega
    exact always_mono (fun _ => mutex_safe_of_inv positive same) _ schedule
      (mutex_run_inv proper schedule)

theorem threads_safe_iff (worker : Thread) {test : ThreadsTest} {yields : CInt}
    (accepted : threadsPrepare sizes malloc yields locks = .ok test) :
    (∀ reqPerformed schedule, Always (threadsStep test) (ThreadsSafe test)
        (threadsStart test reqPerformed : ThreadsState Thread) schedule) ↔ locks.val ≠ 0 := by
  have built := threads_accepted accepted
  constructor
  · intro safe zero
    have none_ : test.threadLocks = 0 := by
      rw [built]
      exact (unsigned_eq_zero_iff locks).mpr zero
    have first : threadsStep test (threadsStart test 0) (.nextEvent worker) =
        some (threadsNextEvent test (threadsStart test 0) worker) := by
      rw [threadsStep]
      exact if_pos ⟨rfl, rfl⟩
    -- the first event of any thread divides
    have divided := (good_of_reaches (safe 0) (reaches_step _ first)).divided
    rw [threadsNextEvent, if_pos none_] at divided
    cases divided
  · intro notZero reqPerformed schedule
    have positive : 0 < unsigned locks :=
      Nat.pos_of_ne_zero fun zero => notZero ((unsigned_eq_zero_iff locks).mp zero)
    have some_ : 0 < test.threadLocks := by
      rw [built]
      exact positive
    have fits : test.threadLocks ≤ test.testMutexes := by rw [built]
    exact always_mono (fun _ inv => inv.safe) _ schedule
      (threads_run_inv some_ fits reqPerformed schedule)

theorem threadLock_small : 296 < 2 ^ 32 := by decide

theorem mutex_small : 40 < 2 ^ 32 := by decide

/-- On x86-64 with glibc. -/
def glibcSizes : Sizes :=
  { threadLock := 296, mutex := 40, threadLockPos := Nat.succ_pos 295
    threadLockSmall := threadLock_small, mutexPos := Nat.succ_pos 39, mutexSmall := mutex_small }

/-- Three options of 0 that pass every check. -/
theorem zeros_unsafe :
    mutexInit glibcSizes (fun _ => true) ⟨0, by decide⟩ ⟨10000, by decide⟩ ⟨50000, by decide⟩ =
        .ok ⟨0, 10000, 50000, 0⟩ ∧
      (¬ ∀ schedule, Always (mutexStep ⟨0, 10000, 50000, 0⟩)
        (MutexSafe ⟨0, 10000, 50000, 0⟩ ⟨50000, by decide⟩)
        (mutexStart ⟨0, 10000, 50000, 0⟩ : MutexState (Fin 4)) schedule) ∧
      mutexInit glibcSizes (fun _ => true) ⟨4096, by decide⟩ ⟨10000, by decide⟩ ⟨0, by decide⟩ =
        .ok ⟨4096, 10000, 0, 4096⟩ ∧
      (¬ ∀ schedule, Always (mutexStep ⟨4096, 10000, 0, 4096⟩)
        (MutexSafe ⟨4096, 10000, 0, 4096⟩ ⟨0, by decide⟩)
        (mutexStart ⟨4096, 10000, 0, 4096⟩ : MutexState (Fin 4)) schedule) ∧
      threadsPrepare glibcSizes (fun _ => true) ⟨1000, by decide⟩ ⟨0, by decide⟩ =
        .ok ⟨1000, 0, 0⟩ ∧
      ¬ ∀ reqPerformed schedule, Always (threadsStep ⟨1000, 0, 0⟩) (ThreadsSafe ⟨1000, 0, 0⟩)
        (threadsStart ⟨1000, 0, 0⟩ reqPerformed : ThreadsState (Fin 4)) schedule := by
  have noMutex : mutexInit glibcSizes (fun _ => true) ⟨0, by decide⟩ ⟨10000, by decide⟩
      ⟨50000, by decide⟩ = .ok ⟨0, 10000, 50000, 0⟩ := rfl
  have noLock : mutexInit glibcSizes (fun _ => true) ⟨4096, by decide⟩ ⟨10000, by decide⟩
      ⟨0, by decide⟩ = .ok ⟨4096, 10000, 0, 4096⟩ := rfl
  have noThreadLock : threadsPrepare glibcSizes (fun _ => true) ⟨1000, by decide⟩
      ⟨0, by decide⟩ = .ok ⟨1000, 0, 0⟩ := rfl
  refine ⟨noMutex, fun safe => ?_, noLock, fun safe => ?_, noThreadLock, fun safe => ?_⟩
  · exact ((mutex_safe_iff 0 noMutex).mp safe).1 rfl
  · exact absurd ((mutex_safe_iff 0 noLock).mp safe).2 (by decide)
  · exact (threads_safe_iff 0 noThreadLock).mp safe rfl

/-- The tests are safe with the options they accept, unless there is no mutex to lock or no
lock to perform. -/
theorem lock_tests_safe_iff (worker : Thread) (sizes : Sizes) (malloc : Nat → Bool)
    (mutexNum mutexLoops mutexLocks threadYields threadLocks : CInt) (mutexTest : MutexTest)
    (threadsTest : ThreadsTest)
    (mutexAccepted : mutexInit sizes malloc mutexNum mutexLoops mutexLocks = .ok mutexTest)
    (threadsAccepted : threadsPrepare sizes malloc threadYields threadLocks = .ok threadsTest) :
    ((∀ schedule, Always (mutexStep mutexTest) (MutexSafe mutexTest mutexLocks)
        (mutexStart mutexTest : MutexState Thread) schedule) ∧
      ∀ reqPerformed schedule, Always (threadsStep threadsTest) (ThreadsSafe threadsTest)
        (threadsStart threadsTest reqPerformed : ThreadsState Thread) schedule) ↔
      mutexNum.val ≠ 0 ∧ 0 < mutexLocks.val ∧ threadLocks.val ≠ 0 := by
  rw [mutex_safe_iff worker mutexAccepted, threads_safe_iff worker threadsAccepted, and_assoc]

/-- The default options. -/
theorem lock_tests_safe_default :
    mutexInit glibcSizes (fun _ => true) ⟨4096, by decide⟩ ⟨10000, by decide⟩
        ⟨50000, by decide⟩ = .ok ⟨4096, 10000, 50000, 4096⟩ ∧
      (∀ schedule, Always (mutexStep ⟨4096, 10000, 50000, 4096⟩)
        (MutexSafe ⟨4096, 10000, 50000, 4096⟩ ⟨50000, by decide⟩)
        (mutexStart ⟨4096, 10000, 50000, 4096⟩ : MutexState (Fin 4)) schedule) ∧
      ∀ reqPerformed schedule, Always (threadsStep ⟨1000, 8, 8⟩) (ThreadsSafe ⟨1000, 8, 8⟩)
        (threadsStart ⟨1000, 8, 8⟩ reqPerformed : ThreadsState (Fin 4)) schedule :=
  ⟨rfl, (lock_tests_safe_iff (0 : Fin 4) glibcSizes (fun _ => true) ⟨4096, by decide⟩
    ⟨10000, by decide⟩ ⟨50000, by decide⟩ ⟨1000, by decide⟩ ⟨8, by decide⟩
    ⟨4096, 10000, 50000, 4096⟩ ⟨1000, 8, 8⟩ rfl rfl).mpr ⟨by decide, by decide, by decide⟩⟩

end Options
end PteSysbench.MutexThreads
