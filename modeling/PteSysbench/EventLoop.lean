import PteSysbench.ActionSystem
import Mathlib.Data.Fintype.Basic
import Mathlib.Logic.Function.Basic

/-!
The worker threads of `sysbench.c` (`sb_more_events`, `sb_event_stop` and the two
`thread_run` loops) beside the event generator of limited-rate mode. Every access
to shared data is a step of its own; the ring is an atomic queue.
-/

namespace PteSysbench.EventLoop

/-- MAX_QUEUE_LEN. -/
def maxQueueLen : Nat := 131072

/-- `ck_ring` keeps one slot of its buffer free. -/
def ringCapacity : Nat := maxQueueLen - 1

/-- The loop of `sysbench.c` or the one of `sysbench.lua`. -/
inductive LoopKind where
  | c
  | lua
  deriving DecidableEq, Repr

structure Globals where
  loop : LoopKind
  txRate : Nat
  maxEvents : Nat
  maxTimeNs : Nat
  deriving DecidableEq, Repr

/-- How an event ends: `next_event` returned SB_REQ_TYPE_NULL, the event returned
(C: zero, Lua: nil or false), it failed (C: non-zero, Lua: an unknown error),
it returned a Lua value that ends the loop, or it raised RESTART_EVENT. -/
inductive EventOutcome where
  | nullEvent
  | finished
  | failed
  | truthy
  | restart
  deriving DecidableEq, Repr

/-- Where a worker is. A dequeued pointer is the index of its `queue_array`
element, NULL is `none`. -/
inductive WorkerPc where
  | checkError
  | checkTime
  | loadLimit
  | countEvent (limit : Nat)
  | dequeue
  | loopError
  | lock
  | wait
  | asleep
  | relock
  | unlock
  | recheckError
  | recheckTime
  | addConcurrency (ptr : Option Nat)
  | readTimestamp (ptr : Option Nat)
  | returned (more : Bool)
  | running
  | exiting
  | left
  deriving DecidableEq, Repr

inductive GeneratorPc where
  | top
  | store
  | enqueue
  | signal
  | full
  | broadcast
  | done
  deriving DecidableEq, Repr

namespace WorkerPc

/-- Past the time check and not yet past the error check of the dequeue loop. -/
def attempting : WorkerPc → Bool
  | .loadLimit | .countEvent _ | .dequeue | .loopError => true
  | _ => false

/-- Past a failed dequeue and not yet registered with the condition variable. -/
def blocking : WorkerPc → Bool
  | .loopError | .lock | .wait => true
  | _ => false

/-- Runs without anybody's help. -/
def awake : WorkerPc → Bool
  | .asleep | .left => false
  | _ => true

end WorkerPc

/-- `missedSignal` and `missedBroadcast` are history: a signal, or the generator's
broadcast, was sent while the worker was on its way to the wait. -/
structure Worker where
  pc : WorkerPc
  rc : Bool
  queueTime : Nat
  missedSignal : Bool
  missedBroadcast : Bool
  deriving DecidableEq, Repr

structure State (n : Nat) where
  clock : Nat
  error : Bool
  maxEvents : Nat
  nevents : Nat
  queue : List Nat
  queueArray : Nat → Nat
  index : Nat
  generator : GeneratorPc
  mutex : Option (Fin n)
  concurrency : Int
  worker : Fin n → Worker

inductive Action (n : Nat) where
  | tick (now : Nat)
  | raiseError
  | endWarmup
  | generator
  | signal (woken : Fin n → Bool)
  | spuriousWakeup (w : Fin n)
  | worker (w : Fin n)
  | event (w : Fin n) (outcome : EventOutcome)

variable {n : Nat}

namespace State

def set (s : State n) (w : Fin n) (next : Worker) : State n :=
  { s with worker := Function.update s.worker w next }

def goto (s : State n) (w : Fin n) (pc : WorkerPc) : State n :=
  s.set w { s.worker w with pc := pc }

@[simp] theorem set_worker_same (s : State n) (w : Fin n) (next : Worker) :
    (s.set w next).worker w = next := by
  simp [set]

@[simp] theorem set_worker_other (s : State n) (w v : Fin n) (next : Worker) (other : v ≠ w) :
    (s.set w next).worker v = s.worker v := by
  simp [set, other]

@[simp] theorem goto_worker_same (s : State n) (w : Fin n) (pc : WorkerPc) :
    (s.goto w pc).worker w = { s.worker w with pc := pc } := by
  simp [goto]

@[simp] theorem goto_worker_other (s : State n) (w v : Fin n) (pc : WorkerPc) (other : v ≠ w) :
    (s.goto w pc).worker v = s.worker v := by
  simp [goto, other]

end State

def timeUp (cfg : Globals) (s : State n) : Bool :=
  decide (0 < cfg.maxTimeNs) && decide (cfg.maxTimeNs ≤ s.clock)

/-- The limits are passed; only limited-rate mode takes an event from the queue. -/
def afterLimits (cfg : Globals) : WorkerPc :=
  if 0 < cfg.txRate then .dequeue else .returned true

/-- One step of `sb_more_events`, or of the loop around it outside the event. -/
def workerStep (cfg : Globals) (s : State n) (w : Fin n) : Option (State n) :=
  match (s.worker w).pc with
  | .checkError => some (s.goto w (if s.error then .returned false else .checkTime))
  | .checkTime => some (s.goto w (if timeUp cfg s then .returned false else .loadLimit))
  | .loadLimit =>
      some (s.goto w (if 0 < s.maxEvents then .countEvent s.maxEvents else afterLimits cfg))
  | .countEvent limit =>
      some ({ s with nevents := (s.nevents + 1) % 2 ^ 64 }.goto w
        (if limit ≤ s.nevents then .returned false else afterLimits cfg))
  | .dequeue =>
      match s.queue with
      | ptr :: rest => some ({ s with queue := rest }.goto w (.addConcurrency (some ptr)))
      | [] => some (s.set w { s.worker w with pc := .loopError, missedSignal := false })
  -- an error ends the dequeue loop with the pointer as it was initialised
  | .loopError => some (s.goto w (if s.error then .addConcurrency none else .lock))
  | .lock => if s.mutex = none then some ({ s with mutex := some w }.goto w .wait) else none
  -- pthread_cond_wait releases the mutex and starts to sleep in one step
  | .wait => some ({ s with mutex := none }.goto w .asleep)
  | .asleep => none
  | .relock =>
      if s.mutex = none then some ({ s with mutex := some w }.goto w .unlock) else none
  | .unlock => some ({ s with mutex := none }.goto w .recheckError)
  | .recheckError => some (s.goto w (if s.error then .returned false else .recheckTime))
  | .recheckTime => some (s.goto w (if timeUp cfg s then .returned false else .dequeue))
  | .addConcurrency ptr =>
      some ({ s with concurrency := s.concurrency + 1 }.goto w (.readTimestamp ptr))
  | .readTimestamp none => none
  | .readTimestamp (some ptr) =>
      some (s.set w { s.worker w with
        pc := .returned true
        queueTime := (s.clock + 2 ^ 64 - s.queueArray ptr) % 2 ^ 64 })
  -- sb_more_events is called before rc is looked at
  | .returned more =>
      some (s.goto w (if more && !(s.worker w).rc then .running else .exiting))
  | .running => none
  -- worker_thread raises the error for the others
  | .exiting => some ({ s with error := s.error || (s.worker w).rc }.goto w .left)
  | .left => none

/-- `sb_event_stop`, as far as it touches shared data. -/
def sbEventStop (cfg : Globals) (s : State n) : State n :=
  if 0 < cfg.txRate then { s with concurrency := s.concurrency - 1 } else s

/-- The rest of the loop body once the event has ended. -/
def eventStep (cfg : Globals) (s : State n) (w : Fin n) (outcome : EventOutcome) :
    Option (State n) :=
  if (s.worker w).pc = .running then
    match cfg.loop, outcome with
    | .c, .nullEvent => some (s.goto w .exiting)
    | .c, .failed =>
        some ((sbEventStop cfg s).set w { s.worker w with pc := .checkError, rc := true })
    | .lua, .failed => some (s.set w { s.worker w with pc := .exiting, rc := true })
    | .lua, .truthy => some (s.goto w .exiting)
    -- the event begins again without sb_event_stop
    | .lua, .restart => some s
    | _, .finished => some ((sbEventStop cfg s).set w { s.worker w with pc := .checkError })
    | _, _ => none
  else none

namespace Worker

/-- A signal wakes a worker or passes it. -/
def hearSignal (worker : Worker) (woken : Bool) : Worker :=
  if woken then { worker with pc := .relock }
  else if worker.pc.blocking then { worker with missedSignal := true }
  else worker

def hearBroadcast (worker : Worker) : Worker :=
  if worker.pc = .asleep then { worker with pc := .relock }
  else if worker.pc.attempting || worker.pc.blocking then { worker with missedBroadcast := true }
  else worker

theorem hear_signal_missed_broadcast (worker : Worker) (woken : Bool) :
    (worker.hearSignal woken).missedBroadcast = worker.missedBroadcast := by
  unfold hearSignal
  split
  · rfl
  · split <;> rfl

theorem hear_signal_missed (worker : Worker) (woken : Bool)
    (blocked : (worker.hearSignal woken).pc.blocking = true) :
    (worker.hearSignal woken).missedSignal = true := by
  unfold hearSignal at blocked ⊢
  cases woken
  · by_cases before : worker.pc.blocking = true
    · simp [before]
    · simp [before] at blocked
  · cases blocked

theorem hear_signal_asleep (worker : Worker) (woken : Bool)
    (down : (worker.hearSignal woken).pc = .asleep) : woken = false ∧ worker.pc = .asleep := by
  unfold hearSignal at down
  cases woken
  · by_cases before : worker.pc.blocking = true
    · exact ⟨rfl, by simpa [before] using down⟩
    · exact ⟨rfl, by simpa [before] using down⟩
  · cases down

theorem hear_broadcast_cases (worker : Worker) :
    worker.pc = .asleep ∧ worker.hearBroadcast.pc = .relock ∨
    worker.pc ≠ .asleep ∧ worker.hearBroadcast.pc = worker.pc ∧
      worker.hearBroadcast.missedSignal = worker.missedSignal ∧
      (worker.pc.attempting = true ∨ worker.pc.blocking = true →
        worker.hearBroadcast.missedBroadcast = true) := by
  by_cases down : worker.pc = .asleep
  · exact Or.inl ⟨down, by simp [hearBroadcast, down]⟩
  · refine Or.inr ⟨down, ?_⟩
    by_cases here : worker.pc.attempting = true ∨ worker.pc.blocking = true
    · simp [hearBroadcast, down, here]
    · simp [hearBroadcast, down, here]

theorem hear_broadcast_awake (worker : Worker) : worker.hearBroadcast.pc ≠ .asleep := by
  rcases hear_broadcast_cases worker with ⟨_, up⟩ | ⟨up, kept, _⟩
  · simp [up]
  · rwa [kept]

end Worker

/-- `eventgen_thread_proc`, without the signal. -/
def generatorStep (cfg : Globals) (s : State n) : Option (State n) :=
  match s.generator with
  | .top => some { s with generator := if timeUp cfg s then .broadcast else .store }
  | .store =>
      some { s with
        queueArray := Function.update s.queueArray s.index s.clock
        generator := .enqueue }
  | .enqueue =>
      if s.queue.length < ringCapacity then
        some { s with queue := s.queue ++ [s.index], generator := .signal }
      else some { s with generator := .full }
  | .signal => none
  | .full => some { s with error := true, generator := .broadcast }
  | .broadcast =>
      some { s with worker := fun w => (s.worker w).hearBroadcast, generator := .done }
  | .done => none

/-- `pthread_cond_signal` wakes at least one of the sleeping workers, if there are any. -/
def signalStep (s : State n) (woken : Fin n → Bool) : Option (State n) :=
  if s.generator = .signal ∧ (∀ w, woken w = true → (s.worker w).pc = .asleep) ∧
      ((∃ w, (s.worker w).pc = .asleep) → ∃ w, woken w = true) then
    some { s with
      worker := fun w => (s.worker w).hearSignal (woken w)
      generator := .top
      index := (s.index + 1) % maxQueueLen }
  else none

def step (cfg : Globals) (s : State n) : Action n → Option (State n)
  | .tick now => if s.clock ≤ now ∧ now < 2 ^ 64 then some { s with clock := now } else none
  | .raiseError => some { s with error := true }
  | .endWarmup => some { s with maxEvents := cfg.maxEvents }
  | .generator => generatorStep cfg s
  | .signal woken => signalStep s woken
  | .spuriousWakeup w =>
      if (s.worker w).pc = .asleep then some (s.goto w .relock) else none
  | .worker w => workerStep cfg s w
  | .event w outcome => eventStep cfg s w outcome

def Worker.start : Worker :=
  { pc := .checkError, rc := false, queueTime := 0, missedSignal := false,
    missedBroadcast := false }

/-- Behind the start barrier; a warm-up stage begins with the event limit stored as 0. -/
def start (n maxEvents : Nat) : State n :=
  { clock := 0, error := false, maxEvents := maxEvents, nevents := 0, queue := []
    queueArray := fun _ => 0, index := 0, generator := .top, mutex := none
    concurrency := 0, worker := fun _ => Worker.start }

/-! What a step of a worker does to the others and to the shared data. -/
section Frames
variable {cfg : Globals} {s t : State n} {w : Fin n}

/-- The generator, the clock and the other workers are as they were, an error stays
raised, and the queue loses at most its head. -/
structure OthersUnchanged (s t : State n) (w : Fin n) : Prop where
  generator : t.generator = s.generator
  clock : t.clock = s.clock
  error : s.error = true → t.error = true
  worker : ∀ v, v ≠ w → t.worker v = s.worker v
  queue : t.queue = s.queue ∨ ∃ ptr, s.queue = ptr :: t.queue

theorem set_unchanged (u : State n) (next : Worker) (generator : u.generator = s.generator)
    (clock : u.clock = s.clock) (error : s.error = true → u.error = true)
    (worker : u.worker = s.worker) (queue : u.queue = s.queue ∨ ∃ ptr, s.queue = ptr :: u.queue) :
    OthersUnchanged s (u.set w next) w :=
  ⟨generator, clock, error, fun v other => by simp [other, worker], queue⟩

theorem worker_step_unchanged (taken : workerStep cfg s w = some t) : OthersUnchanged s t w := by
  cases place : (s.worker w).pc <;> simp only [workerStep, place] at taken
  case asleep | running | left => cases taken
  case lock | relock =>
    obtain ⟨_, taken⟩ := Option.ite_none_right_eq_some.mp taken
    exact Option.some.inj taken ▸ set_unchanged _ _ rfl rfl id rfl (Or.inl rfl)
  case dequeue =>
    cases listed : s.queue with
    | nil =>
        simp only [listed, Option.some.injEq] at taken
        exact taken ▸ set_unchanged _ _ rfl rfl id rfl (Or.inl rfl)
    | cons ptr rest =>
        simp only [listed, Option.some.injEq] at taken
        exact taken ▸ set_unchanged _ _ rfl rfl id rfl (Or.inr ⟨ptr, listed⟩)
  case readTimestamp ptr =>
    cases ptr with
    | none => cases taken
    | some ptr =>
        exact Option.some.inj taken ▸ set_unchanged _ _ rfl rfl id rfl (Or.inl rfl)
  case exiting =>
    exact Option.some.inj taken ▸
      set_unchanged _ _ rfl rfl (fun raised => by simp [raised]) rfl (Or.inl rfl)
  all_goals exact Option.some.inj taken ▸ set_unchanged _ _ rfl rfl id rfl (Or.inl rfl)

theorem event_step_unchanged {outcome : EventOutcome}
    (taken : eventStep cfg s w outcome = some t) : OthersUnchanged s t w := by
  have stopped (next : Worker) : OthersUnchanged s ((sbEventStop cfg s).set w next) w := by
    by_cases limited : 0 < cfg.txRate
    · simp only [sbEventStop, limited, ↓reduceIte]
      exact set_unchanged _ _ rfl rfl id rfl (Or.inl rfl)
    · simp only [sbEventStop, limited, ↓reduceIte]
      exact set_unchanged _ _ rfl rfl id rfl (Or.inl rfl)
  obtain ⟨_, taken⟩ := Option.ite_none_right_eq_some.mp taken
  cases loop : cfg.loop <;> cases outcome <;> simp only [loop, reduceCtorEq] at taken
  case c.finished | c.failed | lua.finished => exact Option.some.inj taken ▸ stopped _
  case lua.restart => exact Option.some.inj taken ▸ ⟨rfl, rfl, id, fun _ _ => rfl, Or.inl rfl⟩
  all_goals exact Option.some.inj taken ▸ set_unchanged _ _ rfl rfl id rfl (Or.inl rfl)

end Frames
end PteSysbench.EventLoop
