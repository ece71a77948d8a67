import PteSysbench.EventLoop
import Mathlib.Algebra.BigOperators.Fin
import Mathlib.Algebra.Order.BigOperators.Group.Finset

/-!
The number of in-flight events in limited-rate mode. `sb_more_events` adds one to
`sb_globals.concurrency` behind the dequeue and `sb_event_stop` takes it off; the
exits of both loops in between do not.
-/

namespace PteSysbench.ConcurrencyCount

open ActionSystem EventLoop

variable {n : Nat}

/-- `taken` and `ended` are history: the events dequeued, and those their worker is done with. -/
structure State (n : Nat) where
  loop : EventLoop.State n
  taken : Nat
  ended : Nat

/-- The worker finds an event in the queue. -/
def takes (s : EventLoop.State n) : Action n → Bool
  | .worker w => (s.worker w).pc = .dequeue && !s.queue.isEmpty
  | _ => false

/-- The event of the worker is over: it has returned or failed, there is none behind
the queue entry, or the worker leaves without looking at it. -/
def ends (s : EventLoop.State n) : Action n → Bool
  | .worker w => (s.worker w).pc = .returned true && (s.worker w).rc
  | .event _ outcome => outcome ≠ .restart
  | _ => false

def step (cfg : Globals) (s : State n) (a : Action n) : Option (State n) :=
  (EventLoop.step cfg s.loop a).map fun loop =>
    { loop := loop
      taken := s.taken + (takes s.loop a).toNat
      ended := s.ended + (ends s.loop a).toNat }

def start (n maxEvents : Nat) : State n :=
  { loop := EventLoop.start n maxEvents, taken := 0, ended := 0 }

/-- Between the dequeue and the increment behind it. -/
def entering : WorkerPc → Int
  | .addConcurrency (some _) => 1
  | _ => 0

/-- Behind the increment, with the event not over. -/
def counted : WorkerPc → Int
  | .readTimestamp (some _) | .returned true | .running => 1
  | _ => 0

def sumOf (weight : WorkerPc → Int) (s : EventLoop.State n) : Int :=
  ∑ w, weight (s.worker w).pc

/-- `concurrency`, with the increments that are about to be made, is the number of
events taken and not over, and it is 0 when every worker has left. -/
structure CountsInFlight (s : State n) : Prop where
  inFlight : s.loop.concurrency + sumOf entering s.loop = s.taken - s.ended
  atEnd : (∀ w, (s.loop.worker w).pc = .left) → s.loop.concurrency = 0

/-- An exit between the increment and `sb_event_stop`, or an increment for no event. -/
def leaks (cfg : Globals) (s : EventLoop.State n) : Action n → Bool
  | .worker w =>
      match (s.worker w).pc with
      | .addConcurrency none => true
      | .returned true => (s.worker w).rc
      | _ => false
  | .event _ outcome =>
      match cfg.loop, outcome with
      | .c, .nullEvent | .lua, .failed | .lua, .truthy => true
      | _, _ => false
  | _ => false

/-- Every event taken goes on to `sb_event_stop`. -/
def Stops (cfg : Globals) (s : State n) (a : Action n) : Prop := leaks cfg s.loop a = false

/-! What a step changes in the sums over the workers. -/
section Sums
variable {cfg : Globals} {s t : EventLoop.State n}

theorem sum_own (weight : WorkerPc → Int) (w : Fin n)
    (others : ∀ v, v ≠ w → t.worker v = s.worker v) :
    sumOf weight t = sumOf weight s + (weight (t.worker w).pc - weight (s.worker w).pc) := by
  have moved := total_moved (fun v => weight (s.worker v).pc) (fun v => weight (t.worker v).pc) w
    fun v apart => by rw [others v apart]
  unfold sumOf
  omega

/-- What one step may do: the difference between `concurrency` and the counted
workers grows by the leak, and the workers that hold an event account for what was
taken and is not over. -/
structure Ledger (cfg : Globals) (s t : EventLoop.State n) (a : Action n) : Prop where
  gap : t.concurrency - sumOf counted t =
    s.concurrency - sumOf counted s + (leaks cfg s a).toNat
  held : sumOf counted t + sumOf entering t + (ends s a).toNat =
    sumOf counted s + sumOf entering s + (takes s a).toNat

@[simp] theorem set_concurrency (w : Fin n) (next : Worker) :
    (s.set w next).concurrency = s.concurrency := rfl

@[simp] theorem goto_concurrency (w : Fin n) (pc : WorkerPc) :
    (s.goto w pc).concurrency = s.concurrency := rfl

/-- It is enough to account for the worker that takes the step. -/
theorem own_ledger (w : Fin n) (a : Action n) (others : ∀ v, v ≠ w → t.worker v = s.worker v)
    (own : t.concurrency - counted (t.worker w).pc =
        s.concurrency - counted (s.worker w).pc + (leaks cfg s a).toNat ∧
      counted (t.worker w).pc + entering (t.worker w).pc + (ends s a).toNat =
        counted (s.worker w).pc + entering (s.worker w).pc + (takes s a).toNat) :
    Ledger cfg s t a := by
  have inside := sum_own counted w others
  have before := sum_own entering w others
  constructor <;> omega

theorem worker_ledger (limited : 0 < cfg.txRate) (w : Fin n)
    (taken : workerStep cfg s w = some t) : Ledger cfg s t (.worker w) := by
  apply own_ledger w _ (worker_step_unchanged taken).worker
  -- one case for each place; the counter moves where an event is entered or ended
  cases place : (s.worker w).pc <;> simp only [workerStep, place] at taken
  case asleep | running | left => cases taken
  case lock | relock =>
    obtain ⟨_, taken⟩ := Option.ite_none_right_eq_some.mp taken
    obtain rfl := Option.some.inj taken
    simp [place, counted, entering, leaks, ends, takes]
  case dequeue =>
    cases listed : s.queue with
    | nil =>
        simp only [listed, Option.some.injEq] at taken
        subst taken
        simp [place, listed, counted, entering, leaks, ends, takes]
    | cons ptr rest =>
        simp only [listed, Option.some.injEq] at taken
        subst taken
        simp [place, listed, counted, entering, leaks, ends, takes]
  case readTimestamp ptr =>
    cases ptr with
    | none => cases taken
    | some ptr =>
        obtain rfl := Option.some.inj taken
        simp [place, counted, entering, leaks, ends, takes]
  case addConcurrency ptr =>
    obtain rfl := Option.some.inj taken
    cases ptr <;> simp [place, counted, entering, leaks, ends, takes]
  case checkError | loopError | recheckError =>
    obtain rfl := Option.some.inj taken
    cases s.error <;> simp [place, counted, entering, leaks, ends, takes]
  case checkTime | recheckTime =>
    obtain rfl := Option.some.inj taken
    cases timeUp cfg s <;> simp [place, counted, entering, leaks, ends, takes]
  case loadLimit =>
    obtain rfl := Option.some.inj taken
    by_cases most : 0 < s.maxEvents <;> simp [place, most, limited, afterLimits, counted,
      entering, leaks, ends, takes]
  case countEvent limit =>
    obtain rfl := Option.some.inj taken
    by_cases reached : limit ≤ s.nevents <;> simp [place, reached, limited, afterLimits, counted,
      entering, leaks, ends, takes]
  case returned more =>
    obtain rfl := Option.some.inj taken
    cases more <;> cases failed : (s.worker w).rc <;> simp [place, failed, counted, entering,
      leaks, ends, takes]
  all_goals
    obtain rfl := Option.some.inj taken
    simp [place, counted, entering, leaks, ends, takes]

theorem event_ledger (limited : 0 < cfg.txRate) (w : Fin n) (outcome : EventOutcome)
    (taken : eventStep cfg s w outcome = some t) : Ledger cfg s t (.event w outcome) := by
  apply own_ledger w _ (event_step_unchanged taken).worker
  obtain ⟨place, taken⟩ := Option.ite_none_right_eq_some.mp taken
  cases loop : cfg.loop <;> cases outcome <;> simp only [loop, reduceCtorEq] at taken
  all_goals
    obtain rfl := Option.some.inj taken
    simp [place, loop, limited, counted, entering, leaks, ends, takes, sbEventStop]

/-- A step that moves no worker into or out of an event. -/
theorem still_ledger (a : Action n) (quiet : leaks cfg s a = false ∧ ends s a = false ∧
      takes s a = false) (concurrency : t.concurrency = s.concurrency)
    (inside : ∀ w, counted (t.worker w).pc = counted (s.worker w).pc)
    (before : ∀ w, entering (t.worker w).pc = entering (s.worker w).pc) : Ledger cfg s t a := by
  obtain ⟨leak, still, take⟩ := quiet
  constructor
  · simp [sumOf, concurrency, inside, leak]
  · simp [sumOf, inside, before, still, take]

theorem hear_signal_weight (worker : Worker) (woken : Bool)
    (asleep : woken = true → worker.pc = .asleep) :
    counted (worker.hearSignal woken).pc = counted worker.pc ∧
      entering (worker.hearSignal woken).pc = entering worker.pc := by
  cases woken with
  | true => simp [Worker.hearSignal, asleep, counted, entering]
  | false =>
      cases blocked : worker.pc.blocking <;> simp [Worker.hearSignal, blocked]

theorem hear_broadcast_weight (worker : Worker) :
    counted worker.hearBroadcast.pc = counted worker.pc ∧
      entering worker.hearBroadcast.pc = entering worker.pc := by
  rcases Worker.hear_broadcast_cases worker with ⟨down, up⟩ | ⟨_, kept, _⟩
  · rw [down, up]
    exact ⟨rfl, rfl⟩
  · rw [kept]
    exact ⟨rfl, rfl⟩

theorem generator_ledger (taken : generatorStep cfg s = some t) :
    Ledger cfg s t .generator := by
  have quiet : leaks cfg s .generator = false ∧ ends s .generator = false ∧
      takes s .generator = false := ⟨rfl, rfl, rfl⟩
  cases place : s.generator <;> simp only [generatorStep, place, reduceCtorEq] at taken
  case enqueue =>
    split at taken
    · obtain rfl := Option.some.inj taken
      exact still_ledger _ quiet rfl (fun _ => rfl) fun _ => rfl
    · obtain rfl := Option.some.inj taken
      exact still_ledger _ quiet rfl (fun _ => rfl) fun _ => rfl
  case broadcast =>
    obtain rfl := Option.some.inj taken
    exact still_ledger _ quiet rfl (fun w => (hear_broadcast_weight _).1)
      fun w => (hear_broadcast_weight _).2
  all_goals
    obtain rfl := Option.some.inj taken
    exact still_ledger _ quiet rfl (fun _ => rfl) fun _ => rfl

theorem step_ledger (limited : 0 < cfg.txRate) (a : Action n)
    (taken : EventLoop.step cfg s a = some t) : Ledger cfg s t a := by
  cases a with
  | tick now =>
      obtain ⟨_, taken⟩ := Option.ite_none_right_eq_some.mp taken
      obtain rfl := Option.some.inj taken
      exact still_ledger _ ⟨rfl, rfl, rfl⟩ rfl (fun _ => rfl) fun _ => rfl
  | raiseError | endWarmup =>
      obtain rfl := Option.some.inj taken
      exact still_ledger _ ⟨rfl, rfl, rfl⟩ rfl (fun _ => rfl) fun _ => rfl
  | generator => exact generator_ledger taken
  | signal woken =>
      obtain ⟨⟨_, heard, _⟩, taken⟩ := Option.ite_none_right_eq_some.mp taken
      obtain rfl := Option.some.inj taken
      exact still_ledger _ ⟨rfl, rfl, rfl⟩ rfl
        (fun w => (hear_signal_weight _ _ (heard w)).1)
        fun w => (hear_signal_weight _ _ (heard w)).2
  | spuriousWakeup w =>
      obtain ⟨asleep, taken⟩ := Option.ite_none_right_eq_some.mp taken
      obtain rfl := Option.some.inj taken
      apply own_ledger w
      · intro v other
        simp [other]
      · simp [asleep, counted, entering, leaks, ends, takes]
  | worker w => exact worker_ledger limited w taken
  | event w outcome => exact event_ledger limited w outcome taken

end Sums

/-! Along a run. -/
section Runs
variable {cfg : Globals}

structure Balanced (s : State n) : Prop where
  concurrency : s.loop.concurrency = sumOf counted s.loop
  held : sumOf counted s.loop + sumOf entering s.loop = s.taken - s.ended

theorem start_balanced (n maxEvents : Nat) : Balanced (start n maxEvents) := by
  constructor <;> simp [start, EventLoop.start, Worker.start, sumOf, counted, entering]

theorem balanced_counts (s : State n) (balanced : Balanced s) : CountsInFlight s := by
  refine ⟨by rw [balanced.concurrency, balanced.held], fun left => ?_⟩
  rw [balanced.concurrency]
  simp [sumOf, left, counted]

theorem step_held (limited : 0 < cfg.txRate) (s : State n) (a : Action n) (t : State n)
    (balanced : Balanced s) (taken : step cfg s a = some t) :
    sumOf counted t.loop + sumOf entering t.loop = t.taken - t.ended ∧
      t.loop.concurrency - sumOf counted t.loop = (leaks cfg s.loop a).toNat := by
  obtain ⟨loop, moved, rfl⟩ := Option.map_eq_some_iff.mp taken
  have ledger := step_ledger limited a moved
  have held := ledger.held
  have gap := ledger.gap
  rw [balanced.held] at held
  rw [balanced.concurrency, sub_self, zero_add] at gap
  refine ⟨?_, gap⟩
  push_cast
  omega

theorem step_balanced (limited : 0 < cfg.txRate) (s : State n) (a : Action n) (t : State n)
    (balanced : Balanced s) (stops : Stops cfg s a) (taken : step cfg s a = some t) :
    Balanced t := by
  obtain ⟨held, gap⟩ := step_held limited s a t balanced taken
  rw [Stops] at stops
  rw [stops] at gap
  exact ⟨sub_eq_zero.mp gap, held⟩

theorem step_stops (limited : 0 < cfg.txRate) (s : State n) (a : Action n) (t : State n)
    (balanced : Balanced s) (taken : step cfg s a = some t) (counts : CountsInFlight t) :
    Stops cfg s a := by
  obtain ⟨held, gap⟩ := step_held limited s a t balanced taken
  have inFlight := counts.inFlight
  cases leak : leaks cfg s.loop a with
  | false => exact leak
  | true =>
      rw [leak] at gap
      simp only [Bool.toNat_true, Nat.cast_one] at gap
      omega

theorem counts_in_flight_iff (cfg : Globals) (limited : 0 < cfg.txRate) (n maxEvents : Nat)
    (schedule : List (Action n)) :
    Always (step cfg) CountsInFlight (start n maxEvents) schedule ↔
      Guarded (step cfg) (Stops cfg) (start n maxEvents) schedule :=
  always_iff_guarded balanced_counts (step_balanced limited) (step_stops limited) _ schedule
    (start_balanced n maxEvents)

def limitedRate : Globals := { loop := .c, txRate := 100, maxEvents := 0, maxTimeNs := 0 }

/-- The worker takes the one event there is, and `next_event` has nothing more to do. -/
def noMoreWork : List (Action 1) :=
  List.replicate 3 .generator ++ List.replicate 7 (.worker (Fin.last 0)) ++
    [.event (Fin.last 0) .nullEvent, .worker (Fin.last 0)]

theorem counts_in_flight_one :
    Always (step limitedRate) CountsInFlight (start 1 0) noMoreWork ↔
      Guarded (step limitedRate) (Stops limitedRate) (start 1 0) noMoreWork :=
  counts_in_flight_iff limitedRate (by decide) 1 0 noMoreWork

theorem null_event_stays_counted :
    ∃ t, run (step limitedRate) (start 1 0) noMoreWork = some t ∧
      (∀ w, (t.loop.worker w).pc = .left) ∧ t.taken = 1 ∧ t.ended = 1 ∧
      t.loop.concurrency = 1 := by
  refine ⟨_, rfl, fun w => ?_, rfl, rfl, rfl⟩
  match w with
  | 0 => rfl

end Runs
end PteSysbench.ConcurrencyCount
