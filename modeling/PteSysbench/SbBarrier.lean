import PteSysbench.ActionSystem
import Mathlib.Data.Fintype.BigOperators
import Mathlib.Data.UInt
import Mathlib.Logic.Function.Basic

/-!
sb_barrier.c: a barrier that is used again and again, with a callback the last
thread of every round runs. A NULL callback is one that always returns 0. What
a thread does between taking the mutex and the callback is one step, and so is
what it does from the callback on, since nobody else looks at the barrier then.
-/

namespace PteSysbench.SbBarrier

open ActionSystem

/-- SB_BARRIER_SERIAL_THREAD. -/
def serialThread : Int := 1

structure Barrier where
  initCount : UInt32
  count : UInt32
  serial : UInt32
  error : Bool
  deriving DecidableEq, Repr

def sbBarrierInit (count : UInt32) : Option Barrier :=
  if count = 0 then none
  else some { initCount := count, count := count, serial := 0, error := false }

/-- Where a thread is in `sb_barrier_wait`; `serial` is its local copy. -/
inductive Pc where
  | outside
  | lock
  | arrive
  | callback
  | wait (serial : UInt32)
  | asleep (serial : UInt32)
  | relock (serial : UInt32)
  | recheck (serial : UInt32)
  | unlock (res : Int)
  deriving DecidableEq, Repr

namespace Pc

/-- The mutex is held there. -/
def holds : Pc → Bool
  | .arrive | .callback | .wait _ | .recheck _ | .unlock _ => true
  | _ => false

/-- A broadcast ends the wait, but not the wait for the mutex behind it. -/
def hearBroadcast : Pc → Pc
  | .asleep serial => .relock serial
  | pc => pc

/-- The local serial of a thread that is awake again. -/
def rechecks : Pc → Option UInt32
  | .relock serial | .recheck serial => some serial
  | _ => none

end Pc

variable {Thread : Type} [DecidableEq Thread]

/-- A run of the callback: in whose call, the how manieth call of that thread it
is, and whether it returned 0. -/
structure Callback (Thread : Type) where
  thread : Thread
  round : Nat
  succeeded : Bool

/-- `rounds`, `arrivals`, `results` and `callbacks` are history: how often the serial
was bumped, how often each thread has counted itself, what its calls returned, and
the runs of the callback. -/
structure State (Thread : Type) where
  barrier : Barrier
  mutex : Option Thread
  pc : Thread → Pc
  rounds : Nat
  arrivals : Thread → Nat
  results : Thread → List Int
  callbacks : List (Callback Thread)

inductive Action (Thread : Type) where
  | enter (w : Thread)
  | thread (w : Thread)
  | callback (w : Thread) (succeeded : Bool)
  | spuriousWakeup (w : Thread)

def State.goto (s : State Thread) (w : Thread) (pc : Pc) : State Thread :=
  { s with pc := Function.update s.pc w pc }

/-- The last thread of a round prepares the next one before anybody wakes. -/
def arriveStep (s : State Thread) (w : Thread) : State Thread :=
  if s.barrier.count - 1 = 0 then
    { s with
      barrier := { s.barrier with serial := s.barrier.serial + 1, count := s.barrier.initCount }
      rounds := s.rounds + 1
      arrivals := Function.update s.arrivals w (s.arrivals w + 1)
      pc := Function.update (fun v => (s.pc v).hearBroadcast) w .callback }
  else
    { s with
      barrier := { s.barrier with count := s.barrier.count - 1 }
      arrivals := Function.update s.arrivals w (s.arrivals w + 1)
      pc := Function.update s.pc w (.wait s.barrier.serial) }

def callbackStep (s : State Thread) (w : Thread) (succeeded : Bool) : State Thread :=
  { s with
    barrier := { s.barrier with error := s.barrier.error || !succeeded }
    callbacks := s.callbacks ++ [⟨w, s.arrivals w - 1, succeeded⟩]
    pc := Function.update s.pc w (.unlock (if succeeded then serialThread else -1)) }

/-- One step of `sb_barrier_wait`, outside the callback. -/
def threadStep (s : State Thread) (w : Thread) : Option (State Thread) :=
  match s.pc w with
  | .outside => none
  | .lock => if s.mutex = none then some { s.goto w .arrive with mutex := some w } else none
  | .arrive => some (arriveStep s w)
  | .callback => none
  | .wait serial => some { s.goto w (.asleep serial) with mutex := none }
  | .asleep _ => none
  | .relock serial =>
      if s.mutex = none then some { s.goto w (.recheck serial) with mutex := some w } else none
  | .recheck serial =>
      some (s.goto w (if serial = s.barrier.serial then .wait serial
        else .unlock (if s.barrier.error then -1 else 0)))
  | .unlock res =>
      some { s.goto w .outside with
        mutex := none
        results := Function.update s.results w (s.results w ++ [res]) }

def step (s : State Thread) : Action Thread → Option (State Thread)
  | .enter w => if s.pc w = .outside then some (s.goto w .lock) else none
  | .thread w => threadStep s w
  | .callback w succeeded =>
      if s.pc w = .callback then some (callbackStep s w succeeded) else none
  | .spuriousWakeup w =>
      match s.pc w with
      | .asleep serial => some (s.goto w (.relock serial))
      | _ => none

def start (Thread : Type) (barrier : Barrier) : State Thread :=
  { barrier := barrier, mutex := none, pc := fun _ => .outside, rounds := 0
    arrivals := fun _ => 0, results := fun _ => [], callbacks := [] }

/-! What a state of the barrier keeps. -/
section Invariant

/-- How many calls a thread has counted and returned from, seen from its place. -/
def Placed (rounds : Nat) (serial : UInt32) (arrivals returned : Nat) : Pc → Prop
  | .outside | .lock | .arrive => arrivals = rounds ∧ returned = rounds
  | .callback | .unlock _ => arrivals = rounds ∧ returned + 1 = rounds
  | .wait own | .asleep own => arrivals = rounds + 1 ∧ returned = rounds ∧ own = serial
  | .relock own | .recheck own =>
      arrivals = rounds + 1 ∧ returned = rounds ∧ own = serial ∨
        arrivals = rounds ∧ returned + 1 = rounds ∧ own + 1 = serial

/-- What a call of round `k` returns: the thread of the callback looks at its result,
the others at the error of all rounds so far. -/
def outcome (callbacks : List (Callback Thread)) (k : Nat) (w : Thread) : Int :=
  match callbacks[k]? with
  | none => 0
  | some ran =>
      if ran.thread = w then if ran.succeeded then serialThread else -1
      else if (callbacks.take (k + 1)).all Callback.succeeded then 0 else -1

/-- What a call has returned does not depend on later rounds. -/
theorem outcome_append (callbacks : List (Callback Thread)) (next : Callback Thread) (k : Nat)
    (w : Thread) (ran : k < callbacks.length) :
    outcome (callbacks ++ [next]) k w = outcome callbacks k w := by
  unfold outcome
  rw [List.getElem?_append_left ran, List.take_append_of_le_length ran]

theorem outcome_last (callbacks : List (Callback Thread)) (last : Callback Thread) :
    outcome (callbacks ++ [last]) callbacks.length last.thread =
      if last.succeeded then serialThread else -1 := by
  simp [outcome]

/-- The other threads of a round look at the error. -/
theorem outcome_waiter (callbacks : List (Callback Thread)) (rounds : Nat) (w : Thread)
    (some_ : 0 < rounds) (complete : callbacks.length = rounds)
    (waiter : ∀ ran, callbacks[rounds - 1]? = some ran → ran.thread ≠ w) :
    outcome callbacks (rounds - 1) w =
      if callbacks.all Callback.succeeded then 0 else -1 := by
  have bound : rounds - 1 < callbacks.length := by omega
  have here := List.getElem?_eq_getElem bound
  unfold outcome
  rw [here]
  simp only [waiter _ here, ↓reduceIte]
  rw [List.take_of_length_le (by omega)]

/-- `w` moves within its call and the round goes on. -/
structure OwnStep (s t : State Thread) (w : Thread) : Prop where
  barrier : t.barrier = s.barrier
  rounds : t.rounds = s.rounds
  arrivals : t.arrivals = s.arrivals
  callbacks : t.callbacks = s.callbacks
  pc : ∀ v, v ≠ w → t.pc v = s.pc v
  results : ∀ v, v ≠ w → t.results v = s.results v
  mutex : ∀ v, v ≠ w → (t.mutex = some v ↔ s.mutex = some v)

theorem goto_own (s : State Thread) (w : Thread) (pc : Pc) (mutex : Option Thread)
    (others : ∀ v, v ≠ w → (mutex = some v ↔ s.mutex = some v)) :
    OwnStep s { s.goto w pc with mutex := mutex } w := by
  constructor
  case mutex => exact others
  case pc =>
    intro v other
    exact Function.update_of_ne other _ _
  all_goals intros; rfl

/-- Threads the round still waits for. -/
def awaited (s : State Thread) (w : Thread) : Nat := s.rounds + 1 - s.arrivals w

variable [Fintype Thread]

structure Consistent (s : State Thread) : Prop where
  holding : ∀ w, (s.pc w).holds = true ↔ s.mutex = some w
  placed : ∀ w, Placed s.rounds s.barrier.serial (s.arrivals w) (s.results w).length (s.pc w)
  participants : s.barrier.initCount.toNat = Fintype.card Thread
  awaits : ∑ w, awaited s w = s.barrier.count.toNat
  someAwaited : 0 < s.barrier.count.toNat
  ran : (∀ w, s.pc w ≠ .callback) → s.callbacks.length = s.rounds
  running : ∀ w, s.pc w = .callback → s.callbacks.length + 1 = s.rounds
  error : s.barrier.error = !s.callbacks.all Callback.succeeded
  numbered : s.callbacks.map Callback.round = List.range s.callbacks.length
  pending : ∀ w res, s.pc w = .unlock res → res = outcome s.callbacks (s.rounds - 1) w
  waiters : ∀ w own, (s.pc w).rechecks = some own → own ≠ s.barrier.serial →
    ∀ ran, s.callbacks[s.rounds - 1]? = some ran → ran.thread ≠ w
  returned : ∀ w k res, (s.results w)[k]? = some res →
    k < s.callbacks.length ∧ res = outcome s.callbacks k w

theorem holder_unique {s : State Thread} {v w : Thread} (consistent : Consistent s)
    (one : (s.pc v).holds = true) (other : (s.pc w).holds = true) : v = w := by
  have held := (consistent.holding v).mp one
  rw [(consistent.holding w).mp other] at held
  exact (Option.some.inj held).symm

/-- While somebody holds the mutex behind the callback, every round has had its callback. -/
theorem all_ran {s : State Thread} {w : Thread} (consistent : Consistent s)
    (holds : (s.pc w).holds = true) (behind : s.pc w ≠ .callback) :
    s.callbacks.length = s.rounds := by
  apply consistent.ran
  intro v place
  have same : v = w := holder_unique consistent (by rw [place]; rfl) holds
  exact behind (same ▸ place)

/-- It is enough to look at the thread that moves. -/
theorem own_step_consistent {s t : State Thread} {w : Thread} (consistent : Consistent s)
    (own : OwnStep s t w)
    (outside : s.pc w ≠ .callback ∧ t.pc w ≠ .callback)
    (holding : (t.pc w).holds = true ↔ t.mutex = some w)
    (placed : Placed s.rounds s.barrier.serial (s.arrivals w) (t.results w).length (t.pc w))
    (pending : ∀ res, t.pc w = .unlock res → res = outcome s.callbacks (s.rounds - 1) w)
    (waiter : ∀ own, (t.pc w).rechecks = some own → own ≠ s.barrier.serial →
      ∀ ran, s.callbacks[s.rounds - 1]? = some ran → ran.thread ≠ w)
    (returned : ∀ k res, (t.results w)[k]? = some res →
      k < s.callbacks.length ∧ res = outcome s.callbacks k w) : Consistent t := by
  -- no thread enters or leaves the callback with this step
  have callback (v : Thread) : t.pc v = .callback ↔ s.pc v = .callback := by
    by_cases same : v = w
    · subst same
      exact iff_of_false outside.2 outside.1
    · rw [own.pc v same]
  constructor
  case holding =>
    intro v
    by_cases same : v = w
    · exact same ▸ holding
    · rw [own.pc v same, own.mutex v same]
      exact consistent.holding v
  case placed =>
    intro v
    rw [own.rounds, own.barrier, own.arrivals]
    by_cases same : v = w
    · exact same ▸ placed
    · rw [own.pc v same, own.results v same]
      exact consistent.placed v
  case participants =>
    rw [own.barrier]
    exact consistent.participants
  case awaits =>
    simp only [awaited, own.rounds, own.arrivals, own.barrier]
    exact consistent.awaits
  case someAwaited =>
    rw [own.barrier]
    exact consistent.someAwaited
  case ran =>
    simp only [callback, ne_eq, own.callbacks, own.rounds]
    exact consistent.ran
  case running =>
    simp only [callback, own.callbacks, own.rounds]
    exact consistent.running
  case error =>
    rw [own.barrier, own.callbacks]
    exact consistent.error
  case numbered =>
    rw [own.callbacks]
    exact consistent.numbered
  case pending =>
    intro v res
    rw [own.callbacks, own.rounds]
    by_cases same : v = w
    · exact same ▸ pending res
    · rw [own.pc v same]
      exact consistent.pending v res
  case waiters =>
    intro v serial
    rw [own.callbacks, own.rounds, own.barrier]
    by_cases same : v = w
    · exact same ▸ waiter serial
    · rw [own.pc v same]
      exact consistent.waiters v serial
  case returned =>
    intro v k res
    rw [own.callbacks]
    by_cases same : v = w
    · exact same ▸ returned k res
    · rw [own.results v same]
      exact consistent.returned v k res

end Invariant

/-! What one step does to it. -/
section Steps
variable [Fintype Thread] {s t : State Thread} {w : Thread}

/-- A step within a call that returns nothing yet. -/
theorem goto_consistent (consistent : Consistent s) (pc : Pc) (mutex : Option Thread)
    (others : ∀ v, v ≠ w → (mutex = some v ↔ s.mutex = some v))
    (outside : s.pc w ≠ .callback ∧ pc ≠ .callback) (holding : pc.holds = true ↔ mutex = some w)
    (placed : Placed s.rounds s.barrier.serial (s.arrivals w) (s.results w).length pc)
    (pending : ∀ res, pc = .unlock res → res = outcome s.callbacks (s.rounds - 1) w)
    (waiter : ∀ own, pc.rechecks = some own → own ≠ s.barrier.serial →
      ∀ ran, s.callbacks[s.rounds - 1]? = some ran → ran.thread ≠ w) :
    Consistent { s.goto w pc with mutex := mutex } := by
  apply own_step_consistent consistent (goto_own s w pc mutex others)
  all_goals simp only [State.goto, Function.update_self]
  · exact outside
  · exact holding
  · exact placed
  · exact pending
  · exact waiter
  · exact consistent.returned w

theorem enter_consistent (consistent : Consistent s) (place : s.pc w = .outside) :
    Consistent (s.goto w .lock) := by
  have placed := consistent.placed w
  have holding := consistent.holding w
  rw [place] at placed holding
  exact goto_consistent consistent .lock s.mutex (fun _ _ => Iff.rfl) (by simp [place]) holding
    placed (by simp) (by simp [Pc.rechecks])

omit [Fintype Thread] [DecidableEq Thread] in
/-- Nobody else holds the mutex, before or after. -/
theorem mutex_others (free : s.mutex = none ∨ s.mutex = some w) (mutex : Option Thread)
    (own : mutex = none ∨ mutex = some w) (v : Thread) (other : v ≠ w) :
    mutex = some v ↔ s.mutex = some v := by
  rcases free with free | free <;> rcases own with own | own <;>
    simp [free, own, other.symm]

theorem lock_consistent (consistent : Consistent s) (place : s.pc w = .lock)
    (free : s.mutex = none) : Consistent { s.goto w .arrive with mutex := some w } := by
  have placed := consistent.placed w
  rw [place] at placed
  exact goto_consistent consistent .arrive (some w) (mutex_others (Or.inl free) _ (Or.inr rfl))
    (by simp [place]) (by simp [Pc.holds]) placed (by simp) (by simp [Pc.rechecks])

theorem wait_consistent (consistent : Consistent s) (serial : UInt32)
    (place : s.pc w = .wait serial) :
    Consistent { s.goto w (.asleep serial) with mutex := none } := by
  have placed := consistent.placed w
  have held := (consistent.holding w).mp (by rw [place]; rfl)
  rw [place] at placed
  exact goto_consistent consistent (.asleep serial) none
    (mutex_others (Or.inr held) _ (Or.inl rfl)) (by simp [place]) (by simp [Pc.holds]) placed
    (by simp) (by simp [Pc.rechecks])

theorem wakeup_consistent (consistent : Consistent s) (serial : UInt32)
    (place : s.pc w = .asleep serial) : Consistent (s.goto w (.relock serial)) := by
  have placed := consistent.placed w
  have holding := consistent.holding w
  rw [place] at placed holding
  apply goto_consistent consistent (.relock serial) s.mutex (fun _ _ => Iff.rfl) (by simp [place])
    holding (Or.inl placed) (by simp)
  intro own same changed
  obtain rfl := Option.some.inj same
  exact absurd placed.2.2 changed

theorem relock_consistent (consistent : Consistent s) (serial : UInt32)
    (place : s.pc w = .relock serial) (free : s.mutex = none) :
    Consistent { s.goto w (.recheck serial) with mutex := some w } := by
  have placed := consistent.placed w
  have waiter := consistent.waiters w
  rw [place] at placed waiter
  exact goto_consistent consistent (.recheck serial) (some w)
    (mutex_others (Or.inl free) _ (Or.inr rfl)) (by simp [place]) (by simp [Pc.holds]) placed
    (by simp) waiter

/-- A waiter leaves its loop once the serial has moved, with the error of its round. -/
theorem recheck_consistent (consistent : Consistent s) (serial : UInt32)
    (place : s.pc w = .recheck serial) :
    Consistent (s.goto w (if serial = s.barrier.serial then .wait serial
      else .unlock (if s.barrier.error then -1 else 0))) := by
  have placed := consistent.placed w
  have holding := consistent.holding w
  have waiter := consistent.waiters w
  rw [place] at placed holding waiter
  split
  · rename_i same
    apply goto_consistent consistent (.wait serial) s.mutex (fun _ _ => Iff.rfl) (by simp [place])
      holding _ (by simp) (by simp [Pc.rechecks])
    rcases placed with now | before
    · exact now
    · simp [same] at before
  · rename_i changed
    have released : s.arrivals w = s.rounds ∧ (s.results w).length + 1 = s.rounds := by
      rcases placed with now | before
      · exact absurd now.2.2 changed
      · exact ⟨before.1, before.2.1⟩
    apply goto_consistent consistent (.unlock _) s.mutex (fun _ _ => Iff.rfl) (by simp [place])
      holding released _ (by simp [Pc.rechecks])
    intro res same
    have complete := all_ran consistent (w := w) (by rw [place]; rfl) (by simp [place])
    rw [outcome_waiter s.callbacks s.rounds w (by omega) complete (waiter serial rfl changed)]
    rw [← Pc.unlock.inj same, consistent.error]
    cases s.callbacks.all Callback.succeeded <;> rfl

theorem unlock_consistent (consistent : Consistent s) (res : Int) (place : s.pc w = .unlock res) :
    Consistent { s.goto w .outside with
      mutex := none
      results := Function.update s.results w (s.results w ++ [res]) } := by
  have placed : s.arrivals w = s.rounds ∧ (s.results w).length + 1 = s.rounds := by
    have here := consistent.placed w
    rw [place] at here
    exact here
  have held := (consistent.holding w).mp (by rw [place]; rfl)
  have complete := all_ran consistent (w := w) (by rw [place]; rfl) (by simp [place])
  apply own_step_consistent (w := w) consistent
  · constructor
    case pc =>
      intro v other
      exact Function.update_of_ne other _ _
    case results =>
      intro v other
      exact Function.update_of_ne other _ _
    case mutex => exact mutex_others (Or.inr held) _ (Or.inl rfl)
    all_goals rfl
  all_goals simp only [State.goto, Function.update_self]
  · simp [place]
  · simp [Pc.holds]
  · refine ⟨placed.1, ?_⟩
    rw [List.length_append]
    exact placed.2
  · simp
  · simp [Pc.rechecks]
  · intro k value here
    by_cases earlier : k < (s.results w).length
    · rw [List.getElem?_append_left earlier] at here
      exact consistent.returned w k value here
    · -- the call that returns now
      obtain ⟨rfl, rfl⟩ : k = (s.results w).length ∧ value = res := by
        rw [List.getElem?_append_right (by omega)] at here
        obtain ⟨bound, same⟩ := List.getElem?_eq_some_iff.mp here
        simp only [List.length_cons, List.length_nil] at bound
        exact ⟨by omega, by simpa using same.symm⟩
      have last : s.rounds - 1 = (s.results w).length := by omega
      rw [← last]
      exact ⟨by omega, consistent.pending w value place⟩

theorem count_pred (count : UInt32) (some_ : 0 < count.toNat) :
    (count - 1).toNat = count.toNat - 1 := by
  rw [UInt32.toNat_sub_of_le]
  · rfl
  · rw [UInt32.le_iff_toNat_le]
    exact some_

theorem arrived_total (consistent : Consistent s) (place : s.pc w = .arrive) :
    ∑ v, (s.rounds + 1 - Function.update s.arrivals w (s.arrivals w + 1) v) + 1 =
      s.barrier.count.toNat := by
  have placed : s.arrivals w = s.rounds ∧ (s.results w).length = s.rounds := by
    have here := consistent.placed w
    rw [place] at here
    exact here
  have moved := total_moved (awaited s)
    (fun v => s.rounds + 1 - Function.update s.arrivals w (s.arrivals w + 1) v) w
    fun v other => by simp [awaited, other]
  rw [consistent.awaits] at moved
  simp only [awaited, placed.1, Function.update_self] at moved
  simp only [placed.1]
  omega

/-- The last thread of a round finds all the others waiting in it. -/
theorem others_waiting (consistent : Consistent s) (place : s.pc w = .arrive)
    (last : s.barrier.count.toNat = 1) (v : Thread) (other : v ≠ w) :
    s.arrivals v = s.rounds + 1 ∧ (s.results v).length = s.rounds ∧
      (s.pc v).hearBroadcast = .relock s.barrier.serial := by
  have total := arrived_total consistent place
  rw [last, Nat.add_eq_right, Finset.sum_eq_zero_iff] at total
  have counted := total v (Finset.mem_univ v)
  rw [Function.update_of_ne other] at counted
  have placed := consistent.placed v
  have exclusive : (s.pc v).holds = true → v = w := fun holds =>
    holder_unique consistent holds (by rw [place]; rfl)
  cases here : s.pc v <;> simp only [here, Placed, Pc.holds] at placed exclusive
  case outside | lock | arrive | callback | unlock => omega
  case wait | recheck => exact absurd (exclusive trivial) other
  case asleep => exact ⟨placed.1, placed.2.1, by rw [placed.2.2]; rfl⟩
  case relock =>
    rcases placed with now | before
    · exact ⟨now.1, now.2.1, by rw [now.2.2]; rfl⟩
    · omega

theorem arrive_placed (consistent : Consistent s) (place : s.pc w = .arrive) :
    s.arrivals w = s.rounds ∧ (s.results w).length = s.rounds ∧ s.mutex = some w ∧
      s.callbacks.length = s.rounds := by
  have placed := consistent.placed w
  rw [place] at placed
  have complete := all_ran consistent (w := w) (by rw [place]; rfl) (by simp [place])
  exact ⟨placed.1, placed.2, (consistent.holding w).mp (by rw [place]; rfl), complete⟩

omit [Fintype Thread] in
theorem other_holds {pc : Thread → Pc} {next : Pc} {mutex : Option Thread}
    (before : (pc w).holds = true) (after : next.holds = true)
    (holding : ∀ v, (pc v).holds = true ↔ mutex = some v) (v : Thread) :
    (Function.update pc w next v).holds = true ↔ mutex = some v := by
  by_cases same : v = w
  · subst same
    rw [Function.update_self, ← holding v]
    exact iff_of_true after before
  · rw [Function.update_of_ne same]
    exact holding v

theorem early_arrive_consistent (consistent : Consistent s) (place : s.pc w = .arrive)
    (more : s.barrier.count - 1 ≠ 0) :
    Consistent { s with
      barrier := { s.barrier with count := s.barrier.count - 1 }
      arrivals := Function.update s.arrivals w (s.arrivals w + 1)
      pc := Function.update s.pc w (.wait s.barrier.serial) } := by
  obtain ⟨counted, returned, held, complete⟩ := arrive_placed consistent place
  have total := arrived_total consistent place
  have others (v : Thread) (pc : Pc) (here : Function.update s.pc w (.wait s.barrier.serial) v = pc)
      (waiting : pc ≠ .wait s.barrier.serial) : s.pc v = pc := by
    by_cases same : v = w
    · subst same
      rw [Function.update_self] at here
      exact absurd here.symm waiting
    · rwa [Function.update_of_ne same] at here
  constructor
  case holding =>
    exact other_holds (by rw [place]; rfl) rfl consistent.holding
  case placed =>
    intro v
    by_cases same : v = w
    · subst same
      simp only [Function.update_self]
      exact ⟨by omega, returned, rfl⟩
    · simp only [Function.update_of_ne same]
      exact consistent.placed v
  case participants => exact consistent.participants
  case awaits =>
    rw [count_pred _ consistent.someAwaited]
    simp only [awaited]
    omega
  case someAwaited => exact Nat.pos_of_ne_zero fun none_ => more (UInt32.toNat_inj.mp none_)
  case ran => exact fun _ => complete
  case running =>
    intro v here
    exact consistent.running v (others v _ here (by simp))
  case error => exact consistent.error
  case numbered => exact consistent.numbered
  case pending =>
    intro v res here
    exact consistent.pending v res (others v _ here (by simp))
  case waiters =>
    intro v own here
    by_cases same : v = w
    · subst same
      simp [Pc.rechecks] at here
    · simp only [Function.update_of_ne same] at here
      exact consistent.waiters v own here
  case returned => exact consistent.returned

/-- The next round begins with everybody out of it. -/
theorem last_arrive_consistent (consistent : Consistent s) (place : s.pc w = .arrive)
    (none_ : s.barrier.count - 1 = 0) :
    Consistent { s with
      barrier := { s.barrier with serial := s.barrier.serial + 1, count := s.barrier.initCount }
      rounds := s.rounds + 1
      arrivals := Function.update s.arrivals w (s.arrivals w + 1)
      pc := Function.update (fun v => (s.pc v).hearBroadcast) w .callback } := by
  obtain ⟨counted, returned, held, complete⟩ := arrive_placed consistent place
  have last : s.barrier.count.toNat = 1 := by
    have pred := count_pred _ consistent.someAwaited
    have some_ := consistent.someAwaited
    rw [none_] at pred
    simp only [UInt32.toNat_zero] at pred
    omega
  -- everybody else has arrived and waits, and the broadcast wakes them all
  have waiting (v : Thread) (other : v ≠ w) := others_waiting consistent place last v other
  have arrivals (v : Thread) :
      Function.update s.arrivals w (s.arrivals w + 1) v = s.rounds + 1 := by
    by_cases same : v = w
    · subst same
      rw [Function.update_self, counted]
    · rw [Function.update_of_ne same]
      exact (waiting v same).1
  have pcs (v : Thread) (other : v ≠ w) :
      Function.update (fun v => (s.pc v).hearBroadcast) w Pc.callback v =
        .relock s.barrier.serial := by
    rw [Function.update_of_ne other]
    exact (waiting v other).2.2
  have participants := consistent.participants
  constructor
  case holding =>
    intro v
    by_cases same : v = w
    · subst same
      simp [Pc.holds, held]
    · simp only [pcs v same, held, Option.some.injEq]
      simp [Pc.holds, Ne.symm same]
  case placed =>
    intro v
    simp only [arrivals v]
    by_cases same : v = w
    · subst same
      simp only [Function.update_self]
      exact ⟨rfl, by omega⟩
    · simp only [pcs v same]
      exact Or.inr ⟨rfl, by rw [(waiting v same).2.1], rfl⟩
  case participants => exact participants
  case awaits =>
    simp only [awaited, arrivals, participants]
    simp
  case someAwaited =>
    simp only [participants]
    exact Fintype.card_pos_iff.mpr ⟨w⟩
  case ran => exact fun nobody => absurd (by simp) (nobody w)
  case running =>
    intro v _
    simp only [complete]
  case error => exact consistent.error
  case numbered => exact consistent.numbered
  case pending =>
    intro v res here
    by_cases same : v = w
    · subst same
      simp at here
    · simp only [pcs v same] at here
      cases here
  case waiters =>
    intro v own _ _ ran here
    simp only [Nat.add_sub_cancel] at here
    rw [List.getElem?_eq_none (by omega)] at here
    cases here
  case returned => exact consistent.returned

theorem callback_consistent (consistent : Consistent s) (succeeded : Bool)
    (place : s.pc w = .callback) : Consistent (callbackStep s w succeeded) := by
  have placed : s.arrivals w = s.rounds ∧ (s.results w).length + 1 = s.rounds := by
    have here := consistent.placed w
    rw [place] at here
    exact here
  have running := consistent.running w place
  have holds : (s.pc w).holds = true := by rw [place]; rfl
  have alone (v : Thread) (other : (s.pc v).holds = true) : v = w :=
    holder_unique consistent other holds
  have last : s.rounds - 1 = s.callbacks.length := by omega
  constructor
  case holding =>
    exact other_holds holds rfl consistent.holding
  case placed =>
    intro v
    by_cases same : v = w
    · subst same
      simp only [callbackStep, Function.update_self]
      exact placed
    · simp only [callbackStep, Function.update_of_ne same]
      exact consistent.placed v
  case participants => exact consistent.participants
  case awaits => exact consistent.awaits
  case someAwaited => exact consistent.someAwaited
  case ran =>
    intro _
    simp only [callbackStep, List.length_append, List.length_singleton]
    exact running
  case running =>
    intro v here
    by_cases same : v = w
    · subst same
      simp [callbackStep] at here
    · simp only [callbackStep, Function.update_of_ne same] at here
      exact absurd (alone v (by rw [here]; rfl)) same
  case error =>
    simp only [callbackStep, consistent.error, List.all_append, List.all_cons, List.all_nil,
      Bool.and_true, Bool.not_and]
  case numbered =>
    simp only [callbackStep, List.map_append, consistent.numbered, List.map_cons, List.map_nil,
      List.length_append, List.length_singleton, List.range_succ]
    rw [placed.1, last]
  case pending =>
    intro v res here
    by_cases same : v = w
    · subst same
      simp only [callbackStep, Function.update_self, Pc.unlock.injEq] at here
      rw [← here]
      simp only [callbackStep, last]
      exact (outcome_last s.callbacks ⟨v, _, succeeded⟩).symm
    · simp only [callbackStep, Function.update_of_ne same] at here
      exact absurd (alone v (by rw [here]; rfl)) same
  case waiters =>
    intro v own here _ ran entry
    simp only [callbackStep, last, List.getElem?_concat_length, Option.some.injEq] at entry
    rw [← entry]
    rintro rfl
    simp [callbackStep, Pc.rechecks] at here
  case returned =>
    intro v k res here
    obtain ⟨bound, value⟩ := consistent.returned v k res here
    simp only [callbackStep, List.length_append]
    exact ⟨by omega, value.trans (outcome_append _ _ _ _ bound).symm⟩

theorem arrive_consistent (consistent : Consistent s) (place : s.pc w = .arrive) :
    Consistent (arriveStep s w) := by
  unfold arriveStep
  split
  · exact last_arrive_consistent consistent place ‹_›
  · exact early_arrive_consistent consistent place ‹_›

theorem step_consistent (s : State Thread) (a : Action Thread) (t : State Thread)
    (consistent : Consistent s) (taken : step s a = some t) : Consistent t := by
  cases a with
  | enter w =>
      obtain ⟨place, taken⟩ := Option.ite_none_right_eq_some.mp taken
      exact Option.some.inj taken ▸ enter_consistent consistent place
  | callback w succeeded =>
      obtain ⟨place, taken⟩ := Option.ite_none_right_eq_some.mp taken
      exact Option.some.inj taken ▸ callback_consistent consistent succeeded place
  | spuriousWakeup w =>
      cases place : s.pc w <;> simp only [step, place, reduceCtorEq] at taken
      case asleep serial => exact Option.some.inj taken ▸ wakeup_consistent consistent serial place
  | thread w =>
      cases place : s.pc w <;> simp only [step, threadStep, place, reduceCtorEq] at taken
      case lock =>
        obtain ⟨free, taken⟩ := Option.ite_none_right_eq_some.mp taken
        exact Option.some.inj taken ▸ lock_consistent consistent place free
      case arrive => exact Option.some.inj taken ▸ arrive_consistent consistent place
      case wait serial => exact Option.some.inj taken ▸ wait_consistent consistent serial place
      case relock serial =>
        obtain ⟨free, taken⟩ := Option.ite_none_right_eq_some.mp taken
        exact Option.some.inj taken ▸ relock_consistent consistent serial place free
      case recheck serial =>
        exact Option.some.inj taken ▸ recheck_consistent consistent serial place
      case unlock res => exact Option.some.inj taken ▸ unlock_consistent consistent res place

theorem start_consistent (count : UInt32) (barrier : Barrier)
    (threads : Fintype.card Thread = count.toNat)
    (initialised : sbBarrierInit count = some barrier) : Consistent (start Thread barrier) := by
  obtain ⟨some_, made⟩ := Option.ite_none_left_eq_some.mp initialised
  obtain rfl := Option.some.inj made
  constructor
  case awaits => simp [awaited, start, threads]
  case someAwaited => exact Nat.pos_of_ne_zero fun none_ => some_ (UInt32.toNat_inj.mp none_)
  case participants => exact threads.symm
  all_goals simp [start, Pc.holds, Placed, Pc.rechecks]

end Steps

/-! What a step does to the history. -/
section History
variable {s t : State Thread} {a : Action Thread}

theorem arrive_step_others (w v : Thread) (other : v ≠ w) (out : s.pc v = .outside) :
    (arriveStep s w).pc v = .outside := by
  unfold arriveStep
  split <;> simp [other, out, Pc.hearBroadcast]

/-- A thread returns from a call it is in, and is in a call only after it entered one. -/
theorem step_results (taken : step s a = some t) (v : Thread) :
    (t.results v = s.results v ∧ (s.pc v = .outside → a ≠ .enter v → t.pc v = .outside)) ∨
      ∃ res, t.results v = s.results v ++ [res] ∧ s.pc v ≠ .outside ∧ t.pc v = .outside := by
  have moved (w : Thread) (pc : Pc) (inside : s.pc w ≠ .outside) (out : s.pc v = .outside) :
      Function.update s.pc w pc v = .outside := by
    rw [Function.update_of_ne]
    · exact out
    · rintro rfl
      exact inside out
  cases a with
  | enter w =>
      obtain ⟨place, taken⟩ := Option.ite_none_right_eq_some.mp taken
      obtain rfl := Option.some.inj taken
      refine Or.inl ⟨rfl, fun out other => ?_⟩
      have apart : v ≠ w := by
        rintro rfl
        exact other rfl
      simp [State.goto, apart, out]
  | callback w succeeded =>
      obtain ⟨place, taken⟩ := Option.ite_none_right_eq_some.mp taken
      obtain rfl := Option.some.inj taken
      exact Or.inl ⟨rfl, fun out _ => moved w _ (by simp [place]) out⟩
  | spuriousWakeup w =>
      cases place : s.pc w <;> simp only [step, place, reduceCtorEq] at taken
      case asleep serial =>
        obtain rfl := Option.some.inj taken
        exact Or.inl ⟨rfl, fun out _ => moved w _ (by simp [place]) out⟩
  | thread w =>
      cases place : s.pc w <;> simp only [step, threadStep, place, reduceCtorEq] at taken
      case lock | relock =>
        obtain ⟨_, taken⟩ := Option.ite_none_right_eq_some.mp taken
        obtain rfl := Option.some.inj taken
        exact Or.inl ⟨rfl, fun out _ => moved w _ (by simp [place]) out⟩
      case arrive =>
        obtain rfl := Option.some.inj taken
        refine Or.inl ⟨by unfold arriveStep; split <;> rfl, fun out _ => ?_⟩
        apply arrive_step_others w v _ out
        rintro rfl
        simp [place] at out
      case unlock res =>
        obtain rfl := Option.some.inj taken
        by_cases same : v = w
        · subst same
          exact Or.inr ⟨res, by simp, by simp [place], by simp [State.goto]⟩
        · exact Or.inl ⟨by simp [same], fun out _ => moved w _ (by simp [place]) out⟩
      all_goals
        obtain rfl := Option.some.inj taken
        exact Or.inl ⟨rfl, fun out _ => moved w _ (by simp [place]) out⟩

theorem step_callbacks (taken : step s a = some t) :
    (∀ w succeeded, a ≠ .callback w succeeded) ∧ t.callbacks = s.callbacks ∨
      ∃ w succeeded, a = .callback w succeeded ∧ s.pc w = .callback ∧
        t.callbacks = s.callbacks ++ [⟨w, s.arrivals w - 1, succeeded⟩] := by
  cases a with
  | enter w =>
      obtain ⟨place, taken⟩ := Option.ite_none_right_eq_some.mp taken
      exact Or.inl ⟨by simp, Option.some.inj taken ▸ rfl⟩
  | callback w succeeded =>
      obtain ⟨place, taken⟩ := Option.ite_none_right_eq_some.mp taken
      exact Or.inr ⟨w, succeeded, rfl, place, Option.some.inj taken ▸ rfl⟩
  | spuriousWakeup w =>
      cases place : s.pc w <;> simp only [step, place, reduceCtorEq] at taken
      case asleep serial => exact Or.inl ⟨by simp, Option.some.inj taken ▸ rfl⟩
  | thread w =>
      cases place : s.pc w <;> simp only [step, threadStep, place, reduceCtorEq] at taken
      case lock | relock =>
        obtain ⟨_, taken⟩ := Option.ite_none_right_eq_some.mp taken
        exact Or.inl ⟨by simp, Option.some.inj taken ▸ rfl⟩
      case arrive =>
        obtain rfl := Option.some.inj taken
        exact Or.inl ⟨by simp, by unfold arriveStep; split <;> rfl⟩
      all_goals exact Or.inl ⟨by simp, Option.some.inj taken ▸ rfl⟩

end History

/-! A thread of a complete round leaves it. -/
section Leaving
variable {s t : State Thread} {w v : Thread} {who : Thread → Prop} {succeeded : Bool}

/-- Some threads alone bring the call of `w` to its end, in so many steps. -/
def Returns (who : Thread → Prop) (succeeded : Bool) (w : Thread) (limit : Nat)
    (s : State Thread) : Prop :=
  ∃ schedule t, schedule.length ≤ limit ∧
    (∀ a ∈ schedule, ∃ v, who v ∧ (a = .thread v ∨ a = .callback v succeeded)) ∧
    run step s schedule = some t ∧ (t.results w).length = (s.results w).length + 1

theorem returns_step (limit : Nat) (a : Action Thread) (own : who v)
    (kind : a = .thread v ∨ a = .callback v succeeded) (taken : step s a = some t)
    (same : t.results w = s.results w) (later : Returns who succeeded w limit t) :
    Returns who succeeded w (limit + 1) s := by
  obtain ⟨schedule, u, short, allowed, reached, returned⟩ := later
  refine ⟨a :: schedule, u, Nat.succ_le_succ short, ?_, ?_, same ▸ returned⟩
  · intro b member
    rcases List.mem_cons.mp member with rfl | later
    · exact ⟨v, own, kind⟩
    · exact allowed b later
  · rw [run, taken]
    exact reached

theorem returns_mono (less limit : Nat) (bound : less ≤ limit)
    (returns : Returns who succeeded w less s) : Returns who succeeded w limit s := by
  obtain ⟨schedule, t, short, rest⟩ := returns
  exact ⟨schedule, t, short.trans bound, rest⟩

/-- The thread is in a call whose round is complete. -/
def Released (s : State Thread) (w : Thread) : Prop :=
  (s.results w).length < s.arrivals w ∧ s.arrivals w ≤ s.rounds

theorem unlock_returns (own : who w) (res : Int) (place : s.pc w = .unlock res) :
    Returns who succeeded w 1 s := by
  have taken : step s (.thread w) = some { s.goto w .outside with
      mutex := none
      results := Function.update s.results w (s.results w ++ [res]) } := by
    simp only [step, threadStep, place]
  refine ⟨[.thread w], _, Nat.le_refl 1, ?_, by rw [run, taken]; rfl, by simp⟩
  intro a member
  exact ⟨w, own, Or.inl (List.mem_singleton.mp member)⟩

theorem recheck_returns (own : who w) (serial : UInt32) (place : s.pc w = .recheck serial)
    (changed : serial ≠ s.barrier.serial) : Returns who succeeded w 2 s := by
  have taken : step s (.thread w) =
      some (s.goto w (.unlock (if s.barrier.error then -1 else 0))) := by
    simp only [step, threadStep, place, changed, ↓reduceIte]
  apply returns_step 1 _ own (Or.inl rfl) taken rfl
  exact unlock_returns own _ (Function.update_self ..)

theorem relock_returns (own : who w) (serial : UInt32) (place : s.pc w = .relock serial)
    (changed : serial ≠ s.barrier.serial) (free : s.mutex = none) :
    Returns who succeeded w 3 s := by
  have taken : step s (.thread w) =
      some { s.goto w (.recheck serial) with mutex := some w } := by
    simp only [step, threadStep, place, free, ↓reduceIte]
  apply returns_step 2 _ own (Or.inl rfl) taken rfl
  exact recheck_returns own serial (Function.update_self ..) changed

theorem callback_returns (own : who w) (place : s.pc w = .callback) :
    Returns who succeeded w 2 s := by
  have taken : step s (.callback w succeeded) = some (callbackStep s w succeeded) := by
    simp only [step, place, ↓reduceIte]
  apply returns_step 1 _ own (Or.inr rfl) taken rfl
  exact unlock_returns own _ (Function.update_self ..)

variable [Fintype Thread]

theorem serial_moved (serial : UInt32) : serial ≠ serial + 1 := by
  intro same
  have moved : (1 : UInt32) = 0 := by
    calc (1 : UInt32) = serial + 1 - serial := by rw [add_sub_cancel_left]
      _ = 0 := by rw [← same, sub_self]
  exact absurd moved (by decide)

/-- With the mutex free, or its own, a released thread needs nobody. -/
theorem released_returns (consistent : Consistent s) (released : Released s w) (own : who w)
    (free : s.mutex = none ∨ s.mutex = some w) : Returns who succeeded w 3 s := by
  obtain ⟨inside, complete⟩ := released
  have placed := consistent.placed w
  have holding := consistent.holding w
  cases place : s.pc w <;> simp only [place, Placed, Pc.holds] at placed holding
  case outside | lock | arrive | wait | asleep => omega
  case callback => exact returns_mono 2 3 (by omega) (callback_returns own place)
  case unlock res => exact returns_mono 1 3 (by omega) (unlock_returns own res place)
  case relock serial =>
    have unheld : s.mutex = none := by simpa [← holding] using free
    rcases placed with ⟨now, _⟩ | ⟨_, _, bumped⟩
    · omega
    · exact relock_returns own serial place (bumped ▸ serial_moved serial) unheld
  case recheck serial =>
    rcases placed with ⟨now, _⟩ | ⟨_, _, bumped⟩
    · omega
    · exact returns_mono 2 3 (by omega)
        (recheck_returns own serial place (bumped ▸ serial_moved serial))

/-- Steps a thread takes until it releases the mutex. -/
def Pc.left : Pc → Nat
  | .arrive => 3
  | .callback | .recheck _ => 2
  | .wait _ | .unlock _ => 1
  | _ => 0

/-- Whoever holds the mutex goes on towards its release, and leaves a released thread
as it is. -/
theorem holder_moves (consistent : Consistent s) (held : s.mutex = some v) (other : w ≠ v)
    (succeeded : Bool) :
    ∃ a t, (a = .thread v ∨ a = .callback v succeeded) ∧ step s a = some t ∧
      t.results w = s.results w ∧ t.arrivals w = s.arrivals w ∧ s.rounds ≤ t.rounds ∧
      (t.mutex = none ∨ t.mutex = some v ∧ (t.pc v).left < (s.pc v).left) := by
  have holds := (consistent.holding v).mpr held
  cases place : s.pc v <;> simp only [place, Pc.holds, reduceCtorEq] at holds
  case arrive =>
    refine ⟨.thread v, arriveStep s v, Or.inl rfl, by simp only [step, threadStep, place], ?_⟩
    unfold arriveStep
    split <;> simp [other, held, Pc.left]
  case callback =>
    refine ⟨.callback v succeeded, callbackStep s v succeeded, Or.inr rfl, ?_, rfl, rfl,
      Nat.le_refl _, Or.inr ⟨held, ?_⟩⟩
    · simp only [step, place, ↓reduceIte]
    · simp [callbackStep, Pc.left]
  case recheck serial =>
    have taken : step s (.thread v) = some (s.goto v (if serial = s.barrier.serial then .wait serial
        else .unlock (if s.barrier.error then -1 else 0))) := by
      simp only [step, threadStep, place]
    refine ⟨.thread v, _, Or.inl rfl, taken, rfl, rfl, Nat.le_refl _, Or.inr ⟨held, ?_⟩⟩
    simp only [State.goto, Function.update_self]
    split <;> simp [Pc.left]
  case wait serial =>
    have taken : step s (.thread v) = some { s.goto v (.asleep serial) with mutex := none } := by
      simp only [step, threadStep, place]
    exact ⟨.thread v, _, Or.inl rfl, taken, rfl, rfl, Nat.le_refl _, Or.inl rfl⟩
  case unlock res =>
    have taken : step s (.thread v) = some { s.goto v .outside with
        mutex := none
        results := Function.update s.results v (s.results v ++ [res]) } := by
      simp only [step, threadStep, place]
    exact ⟨.thread v, _, Or.inl rfl, taken, Function.update_of_ne other _ _, rfl, Nat.le_refl _,
      Or.inl rfl⟩

theorem holder_then_returns (limit : Nat) (consistent : Consistent s) (released : Released s w)
    (held : s.mutex = some v) (other : w ≠ v) (own : who w) (holder : who v)
    (short : (s.pc v).left ≤ limit) : Returns who succeeded w (limit + 3) s := by
  induction limit generalizing s with
  | zero =>
      have holds := (consistent.holding v).mpr held
      cases place : s.pc v <;> simp [place, Pc.holds, Pc.left] at holds short
  | succ limit ih =>
      obtain ⟨a, t, kind, taken, results, arrivals, rounds, next⟩ :=
        holder_moves consistent held other succeeded
      have later := step_consistent s a t consistent taken
      have still : Released t w := by
        rw [Released, results, arrivals]
        exact ⟨released.1, released.2.trans rounds⟩
      have returns : Returns who succeeded w (limit + 3) t := by
        rcases next with free | ⟨kept, less⟩
        · exact returns_mono 3 _ (by omega) (released_returns later still own (Or.inl free))
        · exact ih later still kept (by omega)
      rw [Nat.add_right_comm]
      exact returns_step _ a holder kind taken results returns

end Leaving

/-! What the callers of a barrier rely on. -/
section Rounds
variable [Fintype Thread] {s : State Thread}

/-- The call goes on by itself: it needs no wake-up, and no step but its own and
those of the thread that holds the mutex, whatever the callback says. -/
def CanReturn (s : State Thread) (w : Thread) : Prop :=
  (∀ serial, s.pc w ≠ .asleep serial) ∧
    ∀ succeeded, Returns (fun v => v = w ∨ s.mutex = some v) succeeded w 6 s

/-- Call `k` of a thread belongs to round `k`. -/
structure RoundsKept (s : State Thread) : Prop where
  together : ∀ w v, (s.results w).length ≤ s.arrivals v
  onceEach : s.callbacks.map Callback.round = List.range s.callbacks.length
  callbackFirst : ∀ w, (s.results w).length ≤ s.callbacks.length
  succeeded : ∀ (k : Nat) (ran : Callback Thread), s.callbacks[k]? = some ran →
    (s.callbacks.take k).all Callback.succeeded = true → ran.succeeded = true →
      ∃ last, ∀ w res, (s.results w)[k]? = some res → res = if w = last then serialThread else 0
  failed : ∀ (k : Nat) (ran : Callback Thread), s.callbacks[k]? = some ran →
    (s.callbacks.take k).all Callback.succeeded = true → ran.succeeded = false →
      ∀ w res, (s.results w)[k]? = some res → res < 0
  unblocked : ∀ w, (s.results w).length < s.arrivals w →
    (∀ v, (s.results w).length < s.arrivals v) → CanReturn s w

theorem arrivals_range (consistent : Consistent s) (w : Thread) :
    s.rounds ≤ s.arrivals w ∧ s.arrivals w ≤ s.rounds + 1 ∧
      (s.results w).length ≤ s.rounds ∧ s.arrivals w ≤ (s.results w).length + 1 := by
  have placed := consistent.placed w
  cases place : s.pc w <;> simp only [place, Placed] at placed <;> omega

theorem results_ran (consistent : Consistent s) (w : Thread) :
    (s.results w).length ≤ s.callbacks.length := by
  by_contra more
  obtain ⟨bound, _⟩ := consistent.returned w s.callbacks.length _
    (List.getElem?_eq_getElem (Nat.lt_of_not_ge more))
  exact absurd bound (Nat.lt_irrefl _)

/-- A round that everybody has called is complete. -/
theorem released_of_called (consistent : Consistent s) (w : Thread)
    (inside : (s.results w).length < s.arrivals w)
    (called : ∀ v, (s.results w).length < s.arrivals v) : Released s w := by
  refine ⟨inside, ?_⟩
  by_contra early
  have range := arrivals_range consistent w
  -- else nobody would be awaited
  have nobody : ∑ v, awaited s v = 0 := by
    apply Finset.sum_eq_zero
    intro v _
    have other := arrivals_range consistent v
    have here := called v
    unfold awaited
    omega
  have some_ := consistent.someAwaited
  rw [← consistent.awaits, nobody] at some_
  exact absurd some_ (Nat.lt_irrefl 0)

theorem released_can_return (consistent : Consistent s) (w : Thread) (released : Released s w) :
    CanReturn s w := by
  refine ⟨fun serial place => ?_, fun succeeded => ?_⟩
  · have placed := consistent.placed w
    simp only [place, Placed] at placed
    exact absurd (placed.1 ▸ released.2) (by omega)
  · cases held : s.mutex with
    | none =>
        exact returns_mono 3 6 (by omega)
          (released_returns consistent released (Or.inl rfl) (Or.inl held))
    | some v =>
        by_cases own : w = v
        · exact returns_mono 3 6 (by omega)
            (released_returns consistent released (Or.inl rfl) (Or.inr (own ▸ held)))
        · apply holder_then_returns 3 consistent released held own (Or.inl rfl) (Or.inr rfl)
          cases s.pc v <;> simp [Pc.left]

omit [DecidableEq Thread] [Fintype Thread] in
theorem take_next_all (callbacks : List (Callback Thread)) (k : Nat) (ran : Callback Thread)
    (entry : callbacks[k]? = some ran)
    (before : (callbacks.take k).all Callback.succeeded = true) :
    (callbacks.take (k + 1)).all Callback.succeeded = ran.succeeded := by
  rw [List.take_add_one, entry, List.all_append, before]
  simp

theorem consistent_rounds (consistent : Consistent s) : RoundsKept s := by
  constructor
  case together =>
    intro w v
    exact (arrivals_range consistent w).2.2.1.trans (arrivals_range consistent v).1
  case onceEach => exact consistent.numbered
  case callbackFirst => exact results_ran consistent
  case succeeded =>
    intro k ran entry before success
    refine ⟨ran.thread, fun w res here => ?_⟩
    rw [(consistent.returned w k res here).2, outcome, entry]
    simp only [take_next_all _ k ran entry before, success, ↓reduceIte, eq_comm]
  case failed =>
    intro k ran entry before failure w res here
    rw [(consistent.returned w k res here).2, outcome, entry]
    simp [take_next_all _ k ran entry before, failure]
  case unblocked =>
    intro w inside called
    exact released_can_return consistent w (released_of_called consistent w inside called)

/-- Two threads through a round whose callback fails. -/
def failedRound : List (Action (Fin 2)) :=
  let v : Fin 2 := ⟨0, Nat.zero_lt_two⟩
  let w : Fin 2 := ⟨1, Nat.one_lt_two⟩
  [.enter v, .thread v, .thread v, .thread v, .enter w, .thread w, .thread w, .callback w false,
    .thread w, .thread v, .thread v, .thread v]

end Rounds
end PteSysbench.SbBarrier
