import PteSysbench.EventLoop
import Mathlib.Algebra.BigOperators.Fin
import Mathlib.Algebra.Order.BigOperators.Group.Finset

/-!
`--events` without a time limit and without limited-rate mode: which calls of
`sb_more_events` the counter lets through, and how many events the workers execute.
-/

namespace PteSysbench.EventLimit

open ActionSystem EventLoop

variable {n : Nat}

/-- `calls`, `owed`, `executed` and `byFalse` are history: what the calls that loaded a
non-zero limit return, in the order of their fetch-and-add; a worker that such a call has
sent to an event it has not executed; the events so executed; and a worker that
left its loop because `sb_more_events` returned false. -/
structure State (n : Nat) where
  loop : EventLoop.State n
  calls : List Bool
  owed : Fin n → Bool
  executed : Nat
  byFalse : Fin n → Bool

/-- The event has been executed, with whatever result. -/
def executes : EventOutcome → Bool
  | .finished | .failed | .truthy => true
  | .nullEvent | .restart => false

def record (s : State n) (next : EventLoop.State n) : Action n → State n
  | .worker w =>
      match (s.loop.worker w).pc with
      | .countEvent _ =>
          let more := decide ((next.worker w).pc = .returned true)
          { s with loop := next, calls := s.calls ++ [more], owed := Function.update s.owed w more }
      | .returned more => { s with loop := next, byFalse := Function.update s.byFalse w (!more) }
      | _ => { s with loop := next }
  | .event w outcome =>
      if executes outcome then
        { s with
          loop := next
          executed := s.executed + (s.owed w).toNat
          owed := Function.update s.owed w false }
      else { s with loop := next }
  | _ => { s with loop := next }

def step (cfg : Globals) (s : State n) (a : Action n) : Option (State n) :=
  (EventLoop.step cfg s.loop a).map fun next => record s next a

def start (n maxEvents : Nat) : State n :=
  { loop := EventLoop.start n maxEvents, calls := [], owed := fun _ => false, executed := 0
    byFalse := fun _ => false }

/-- The first calls under the limit, and no others, return true; and where nobody has
failed and false has ended every loop, so many events have been executed. -/
structure LimitKept (maxEvents : Nat) (s : State n) : Prop where
  calls : ∀ (i : Nat) (more : Bool), s.calls[i]? = some more → (more = true ↔ i < maxEvents)
  executed : s.loop.error = false →
    (∀ w, (s.loop.worker w).pc = .left ∧ s.byFalse w = true) → s.executed = maxEvents

/-! What every step keeps. -/
section Invariant
variable {cfg : Globals} {s t : State n}

/-- The worker asks for no more events. -/
def ended : WorkerPc → Bool
  | .returned false | .exiting | .left => true
  | _ => false

def endedCount (s : State n) : Nat := ∑ w, (ended (s.loop.worker w).pc).toNat

def owedCount (s : State n) : Nat := ∑ w, (s.owed w).toNat

theorem ended_moved (w : Fin n) (others : ∀ v, v ≠ w → t.loop.worker v = s.loop.worker v) :
    endedCount t + (ended (s.loop.worker w).pc).toNat =
      endedCount s + (ended (t.loop.worker w).pc).toNat :=
  total_moved (fun v => (ended (s.loop.worker v).pc).toNat)
    (fun v => (ended (t.loop.worker v).pc).toNat) w fun v other => by rw [others v other]

theorem owed_moved (w : Fin n) (others : ∀ v, v ≠ w → t.owed v = s.owed v) :
    owedCount t + (s.owed w).toNat = owedCount s + (t.owed w).toNat :=
  total_moved (fun v => (s.owed v).toNat) (fun v => (t.owed v).toNat) w
    fun v other => by rw [others v other]

/-- What a worker's place says about its history. -/
def Fits (maxEvents counted : Nat) (error owed byFalse : Bool) : WorkerPc → Prop
  | .checkError | .checkTime | .loadLimit => owed = false ∧ byFalse = false
  | .countEvent limit => limit = maxEvents ∧ owed = false ∧ byFalse = false
  | .returned true | .running => byFalse = false
  | .returned false => owed = false ∧ byFalse = false ∧ (error = false → maxEvents < counted)
  | .exiting | .left =>
      byFalse = true → owed = false ∧ (error = false → maxEvents < counted)
  | _ => False

structure Tracked (maxEvents : Nat) (s : State n) : Prop where
  limit : s.loop.maxEvents = 0 ∨ s.loop.maxEvents = maxEvents
  fits : ∀ w, Fits maxEvents s.calls.length s.loop.error (s.owed w) (s.byFalse w)
    (s.loop.worker w).pc
  counter : s.loop.nevents = s.calls.length % 2 ^ 64
  kept : ∀ (i : Nat) (more : Bool), s.calls[i]? = some more → (more = true ↔ i < maxEvents)
  calling : s.calls.length ≤ maxEvents + endedCount s
  owing : s.executed + owedCount s = min s.calls.length maxEvents

theorem fits_later {maxEvents counted later : Nat} {error raised owed byFalse : Bool}
    {pc : WorkerPc} (more : counted ≤ later) (sticky : error = true → raised = true)
    (fits : Fits maxEvents counted error owed byFalse pc) :
    Fits maxEvents later raised owed byFalse pc := by
  have seen (before : error = false → maxEvents < counted) (quiet : raised = false) :
      maxEvents < later := by
    cases error with
    | false => exact Nat.lt_of_lt_of_le (before rfl) more
    | true =>
        rw [sticky rfl] at quiet
        cases quiet
  cases pc
  case returned result =>
    cases result with
    | true => exact fits
    | false => exact ⟨fits.1, fits.2.1, seen fits.2.2⟩
  case exiting | left => exact fun here => ⟨(fits here).1, seen (fits here).2⟩
  all_goals exact fits

/-- A worker moves and no call is counted. -/
theorem quiet_tracked {maxEvents : Nat} (tracked : Tracked maxEvents s) (w : Fin n)
    (limit : t.loop.maxEvents = s.loop.maxEvents) (nevents : t.loop.nevents = s.loop.nevents)
    (error : s.loop.error = true → t.loop.error = true) (calls : t.calls = s.calls)
    (others : ∀ v, v ≠ w → t.loop.worker v = s.loop.worker v ∧ t.owed v = s.owed v ∧
      t.byFalse v = s.byFalse v)
    (fits : Fits maxEvents s.calls.length t.loop.error (t.owed w) (t.byFalse w)
      (t.loop.worker w).pc)
    (ends : ended (s.loop.worker w).pc = true → ended (t.loop.worker w).pc = true)
    (owes : t.executed + (t.owed w).toNat = s.executed + (s.owed w).toNat) :
    Tracked maxEvents t := by
  have endedSum := ended_moved w fun v other => (others v other).1
  have owedSum := owed_moved w fun v other => (others v other).2.1
  have calling := tracked.calling
  have owing := tracked.owing
  constructor
  case limit => exact limit ▸ tracked.limit
  case fits =>
    intro v
    rw [calls]
    by_cases same : v = w
    · exact same ▸ fits
    · rw [(others v same).1, (others v same).2.1, (others v same).2.2]
      exact fits_later (Nat.le_refl _) error (tracked.fits v)
  case counter => rw [nevents, calls, tracked.counter]
  case kept => exact calls ▸ tracked.kept
  case calling =>
    have grows := Bool.toNat_le_toNat (Bool.le_iff_imp.mpr ends)
    rw [calls]
    omega
  case owing =>
    rw [calls]
    omega

/-- A worker that still asks is not among those that have been refused. -/
theorem calls_bound {maxEvents : Nat} (tracked : Tracked maxEvents s)
    (room : maxEvents + n ≤ 2 ^ 64) (w : Fin n) (asking : ended (s.loop.worker w).pc = false) :
    s.calls.length < 2 ^ 64 := by
  have calling := tracked.calling
  have few : endedCount s < ∑ _v : Fin n, 1 := by
    apply Finset.sum_lt_sum
    · intro v _
      exact Bool.toNat_le _
    · exact ⟨w, Finset.mem_univ w, by simp [asking]⟩
  rw [Finset.sum_const, Finset.card_univ, Fintype.card_fin, smul_eq_mul, mul_one] at few
  omega

/-- A call is counted: one of the first is let through, and a later one ends its worker. -/
theorem counted_tracked {maxEvents : Nat} (tracked : Tracked maxEvents s)
    (room : maxEvents + n ≤ 2 ^ 64) (w : Fin n) (limit : Nat)
    (place : (s.loop.worker w).pc = .countEvent limit)
    (same : t.loop.maxEvents = s.loop.maxEvents)
    (nevents : t.loop.nevents = (s.loop.nevents + 1) % 2 ^ 64)
    (error : t.loop.error = s.loop.error)
    (calls : t.calls = s.calls ++ [decide (s.loop.nevents < maxEvents)])
    (own : (t.loop.worker w).pc = .returned (decide (s.loop.nevents < maxEvents)) ∧
      t.owed w = decide (s.loop.nevents < maxEvents))
    (others : ∀ v, v ≠ w → t.loop.worker v = s.loop.worker v ∧ t.owed v = s.owed v)
    (byFalse : t.byFalse = s.byFalse) (executed : t.executed = s.executed) :
    Tracked maxEvents t := by
  have fits := tracked.fits w
  rw [place] at fits
  obtain ⟨_, notOwed, stays⟩ := fits
  have bound := calls_bound tracked room w (by rw [place]; rfl)
  -- there are no more calls than events and threads, so the counter has not wrapped
  have counter : s.loop.nevents = s.calls.length := by
    rw [tracked.counter, Nat.mod_eq_of_lt bound]
  rw [counter] at nevents calls own
  have length : t.calls.length = s.calls.length + 1 := by simp [calls]
  have endedSum := ended_moved w fun v other => (others v other).1
  have owedSum := owed_moved w fun v other => (others v other).2
  have calling := tracked.calling
  have owing := tracked.owing
  constructor
  case limit => exact same ▸ tracked.limit
  case fits =>
    intro v
    by_cases here : v = w
    · subst here
      rw [own.1, own.2, byFalse, stays, length]
      by_cases early : s.calls.length < maxEvents
      · simp [early, Fits]
      · simp only [early, decide_false]
        exact ⟨rfl, rfl, fun _ => by omega⟩
    · rw [(others v here).1, (others v here).2, byFalse, error, length]
      exact fits_later (Nat.le_succ _) id (tracked.fits v)
  case counter => rw [nevents, length]
  case kept =>
    intro i more entry
    rw [calls] at entry
    by_cases earlier : i < s.calls.length
    · rw [List.getElem?_append_left earlier] at entry
      exact tracked.kept i more entry
    · rw [List.getElem?_append_right (by omega)] at entry
      obtain ⟨last, result⟩ := List.getElem?_eq_some_iff.mp entry
      simp only [List.length_singleton] at last
      obtain rfl : i = s.calls.length := by omega
      simp only [List.getElem_singleton] at result
      rw [← result, decide_eq_true_iff]
  case calling =>
    rw [own.1, place, show ended (.countEvent limit) = false from rfl] at endedSum
    by_cases early : s.calls.length < maxEvents
    · rw [Bool.toNat_false] at endedSum
      omega
    · rw [decide_eq_false early, show ended (.returned false) = true from rfl] at endedSum
      simp only [Bool.toNat_true, Bool.toNat_false] at endedSum
      omega
  case owing =>
    rw [own.2, notOwed] at owedSum
    by_cases early : s.calls.length < maxEvents
    · simp only [early, decide_true, Bool.toNat_true, Bool.toNat_false] at owedSum
      omega
    · simp only [early, decide_false, Bool.toNat_false] at owedSum
      omega

@[simp] theorem goto_error (loop : EventLoop.State n) (w : Fin n) (pc : WorkerPc) :
    (loop.goto w pc).error = loop.error := rfl

/-- The worker only moves on. -/
theorem goto_tracked {maxEvents : Nat} (tracked : Tracked maxEvents s) (w : Fin n) (pc : WorkerPc)
    (fits : Fits maxEvents s.calls.length s.loop.error (s.owed w) (s.byFalse w) pc)
    (ends : ended (s.loop.worker w).pc = true → ended pc = true) :
    Tracked maxEvents { s with loop := s.loop.goto w pc } := by
  apply quiet_tracked tracked w
  · rfl
  · rfl
  · exact id
  · rfl
  · intro v other
    exact ⟨State.goto_worker_other s.loop w v pc other, rfl, rfl⟩
  · simpa using fits
  · simpa using ends
  · rfl

/-- No other limit. -/
structure OnlyEvents (cfg : Globals) : Prop where
  untimed : cfg.maxTimeNs = 0
  unlimitedRate : cfg.txRate = 0

theorem worker_tracked (only : OnlyEvents cfg) (room : cfg.maxEvents + n ≤ 2 ^ 64)
    (tracked : Tracked cfg.maxEvents s) (w : Fin n) (next : EventLoop.State n)
    (moved : workerStep cfg s.loop w = some next) :
    Tracked cfg.maxEvents (record s next (.worker w)) := by
  have others := (worker_step_unchanged moved).worker
  -- no other limit is set
  have untimed : timeUp cfg s.loop = false := by simp [timeUp, only.untimed]
  have behind : afterLimits cfg = .returned true := by simp [afterLimits, only.unlimitedRate]
  have fits := tracked.fits w
  cases place : (s.loop.worker w).pc <;> rw [place] at fits <;>
    simp only [workerStep, place, untimed, behind, Option.some.injEq, reduceCtorEq] at moved
  case checkError =>
    subst moved
    simp only [record, place]
    cases raised : s.loop.error with
    | true => exact goto_tracked tracked w _ ⟨fits.1, fits.2, by simp [raised]⟩ (by simp [ended])
    | false => exact goto_tracked tracked w .checkTime fits (by simp [place, ended])
  case checkTime =>
    subst moved
    simp only [record, place]
    exact goto_tracked tracked w .loadLimit fits (by simp [place, ended])
  case loadLimit =>
    subst moved
    simp only [record, place]
    split
    · rename_i limited
      have loaded : s.loop.maxEvents = cfg.maxEvents := by
        rcases tracked.limit with none_ | loaded
        · omega
        · exact loaded
      exact goto_tracked tracked w (.countEvent _) ⟨loaded, fits⟩ (by simp [place, ended])
    · exact goto_tracked tracked w (.returned true) fits.2 (by simp [place, ended])
  case countEvent limit =>
    obtain rfl : limit = cfg.maxEvents := fits.1
    have result : (next.worker w).pc =
        .returned (decide (s.loop.nevents < cfg.maxEvents)) := by
      rw [← moved]
      by_cases reached : cfg.maxEvents ≤ s.loop.nevents <;>
        simp [reached, Nat.not_lt.mpr, Nat.lt_of_not_ge]
    have more : decide ((next.worker w).pc = .returned true) =
        decide (s.loop.nevents < cfg.maxEvents) := by
      rw [result]
      simp
    apply counted_tracked tracked room w cfg.maxEvents place <;>
      simp only [record, place, more]
    · exact moved ▸ rfl
    · exact moved ▸ rfl
    · exact moved ▸ rfl
    · exact ⟨result, Function.update_self ..⟩
    · intro v other
      exact ⟨others v other, Function.update_of_ne other _ _⟩
  case returned more =>
    apply quiet_tracked tracked w <;> simp only [record, place]
    · exact moved ▸ rfl
    · exact moved ▸ rfl
    · exact moved ▸ id
    · intro v other
      exact ⟨others v other, trivial, Function.update_of_ne other _ _⟩
    · rw [← moved]
      cases more with
      | false => simpa [Fits] using And.intro fits.1 fits.2.2
      | true => cases failed : (s.loop.worker w).rc <;> simp [Fits]
    · rw [← moved]
      cases more <;> simp [ended]
  case exiting =>
    have sticky : s.loop.error = true → next.error = true := fun raised => by
      simp [← moved, raised, State.goto, State.set]
    apply quiet_tracked tracked w <;> simp only [record, place]
    · exact moved ▸ rfl
    · exact moved ▸ rfl
    · exact sticky
    · intro v other
      exact ⟨others v other, trivial, trivial⟩
    · have after : (next.worker w).pc = .left := by simp [← moved]
      have left : Fits cfg.maxEvents s.calls.length s.loop.error (s.owed w) (s.byFalse w) .left :=
        fits
      rw [after]
      exact fits_later (Nat.le_refl _) sticky left
    · simp [← moved, ended]
  all_goals cases fits

theorem event_tracked (only : OnlyEvents cfg) (tracked : Tracked cfg.maxEvents s) (w : Fin n)
    (outcome : EventOutcome) (next : EventLoop.State n)
    (moved : eventStep cfg s.loop w outcome = some next) :
    Tracked cfg.maxEvents (record s next (.event w outcome)) := by
  have others := (event_step_unchanged moved).worker
  obtain ⟨place, moved⟩ := Option.ite_none_right_eq_some.mp moved
  have stopped : sbEventStop cfg s.loop = s.loop := by
    rw [sbEventStop, if_neg (by simp [only.unlimitedRate])]
  have stays : s.byFalse w = false := by
    have fits := tracked.fits w
    rw [place] at fits
    exact fits
  -- an event that was executed is no longer owed
  have executed (pc : WorkerPc) (result : (next.worker w).pc = pc)
      (kept : next.maxEvents = s.loop.maxEvents ∧ next.nevents = s.loop.nevents ∧
        next.error = s.loop.error)
      (fits : Fits cfg.maxEvents s.calls.length s.loop.error false false pc) :
      Tracked cfg.maxEvents { s with
        loop := next
        executed := s.executed + (s.owed w).toNat
        owed := Function.update s.owed w false } := by
    apply quiet_tracked tracked w
    · exact kept.1
    · exact kept.2.1
    · exact kept.2.2 ▸ id
    · rfl
    · intro v other
      exact ⟨others v other, Function.update_of_ne other _ _, rfl⟩
    · simpa only [Function.update_self, result, stays, kept.2.2] using fits
    · simp [place, ended]
    · simp
  have leaves : Fits cfg.maxEvents s.calls.length s.loop.error (s.owed w) (s.byFalse w) .exiting :=
    fun here => absurd (stays.symm.trans here) Bool.noConfusion
  cases loop : cfg.loop <;> cases outcome <;>
    simp only [loop, stopped, reduceCtorEq, Option.some.injEq] at moved
  case c.nullEvent =>
    subst moved
    exact goto_tracked tracked w .exiting leaves (by simp [place, ended])
  case lua.restart =>
    subst moved
    exact tracked
  case lua.failed | lua.truthy =>
    apply executed .exiting
    · simp [← moved]
    · rw [← moved]
      exact ⟨rfl, rfl, rfl⟩
    · exact fun here => absurd here Bool.noConfusion
  case c.finished | c.failed | lua.finished =>
    apply executed .checkError
    · simp [← moved]
    · rw [← moved]
      exact ⟨rfl, rfl, rfl⟩
    · exact ⟨rfl, rfl⟩

/-- What neither moves a worker nor touches the counter. -/
theorem environment_tracked {maxEvents : Nat} (tracked : Tracked maxEvents s)
    (next : EventLoop.State n) (limit : next.maxEvents = 0 ∨ next.maxEvents = maxEvents)
    (nevents : next.nevents = s.loop.nevents) (error : s.loop.error = true → next.error = true)
    (worker : ∀ w, (next.worker w).pc = (s.loop.worker w).pc) :
    Tracked maxEvents { s with loop := next } := by
  constructor
  case limit => exact limit
  case fits =>
    intro w
    rw [worker]
    exact fits_later (Nat.le_refl _) error (tracked.fits w)
  case counter => exact nevents.trans tracked.counter
  case kept => exact tracked.kept
  case calling =>
    simp only [endedCount, worker]
    exact tracked.calling
  case owing => exact tracked.owing

/-- Nobody sleeps where there is no queue. -/
theorem nobody_asleep {maxEvents : Nat} (tracked : Tracked maxEvents s) (w : Fin n) :
    (s.loop.worker w).pc ≠ .asleep := by
  intro down
  have fits := tracked.fits w
  rw [down] at fits
  exact fits

theorem generator_tracked {maxEvents : Nat} (tracked : Tracked maxEvents s)
    (next : EventLoop.State n) (moved : generatorStep cfg s.loop = some next) :
    Tracked maxEvents { s with loop := next } := by
  have limit := tracked.limit
  cases place : s.loop.generator <;> simp only [generatorStep, place, reduceCtorEq] at moved
  case enqueue =>
    split at moved
    · obtain rfl := Option.some.inj moved
      exact environment_tracked tracked _ limit rfl id fun _ => rfl
    · obtain rfl := Option.some.inj moved
      exact environment_tracked tracked _ limit rfl id fun _ => rfl
  case full =>
    obtain rfl := Option.some.inj moved
    exact environment_tracked tracked _ limit rfl (fun _ => rfl) fun _ => rfl
  case broadcast =>
    obtain rfl := Option.some.inj moved
    refine environment_tracked tracked _ limit rfl id ?_
    intro w
    rcases Worker.hear_broadcast_cases (s.loop.worker w) with ⟨down, _⟩ | ⟨_, kept, _⟩
    · exact absurd down (nobody_asleep tracked w)
    · exact kept
  all_goals
    obtain rfl := Option.some.inj moved
    exact environment_tracked tracked _ limit rfl id fun _ => rfl

theorem signal_tracked {maxEvents : Nat} (tracked : Tracked maxEvents s) (woken : Fin n → Bool)
    (next : EventLoop.State n) (moved : signalStep s.loop woken = some next) :
    Tracked maxEvents { s with loop := next } := by
  obtain ⟨⟨_, sleepers, _⟩, moved⟩ := Option.ite_none_right_eq_some.mp moved
  obtain rfl := Option.some.inj moved
  refine environment_tracked tracked _ tracked.limit rfl id ?_
  intro w
  cases chosen : woken w with
  | true => exact absurd (sleepers w chosen) (nobody_asleep tracked w)
  | false =>
      cases blocked : (s.loop.worker w).pc.blocking <;>
        simp [Worker.hearSignal, chosen, blocked]

theorem step_tracked (only : OnlyEvents cfg) (room : cfg.maxEvents + n ≤ 2 ^ 64) (s : State n)
    (a : Action n) (t : State n) (tracked : Tracked cfg.maxEvents s)
    (taken : step cfg s a = some t) : Tracked cfg.maxEvents t := by
  obtain ⟨next, moved, rfl⟩ := Option.map_eq_some_iff.mp taken
  cases a with
  | tick now =>
      obtain ⟨_, moved⟩ := Option.ite_none_right_eq_some.mp moved
      obtain rfl := Option.some.inj moved
      exact environment_tracked tracked _ tracked.limit rfl id fun _ => rfl
  | raiseError =>
      obtain rfl := Option.some.inj moved
      exact environment_tracked tracked _ tracked.limit rfl (fun _ => rfl) fun _ => rfl
  | endWarmup =>
      obtain rfl := Option.some.inj moved
      exact environment_tracked tracked _ (Or.inr rfl) rfl id fun _ => rfl
  | spuriousWakeup w =>
      have down := (Option.ite_none_right_eq_some.mp moved).1
      exact absurd down (nobody_asleep tracked w)
  | worker w => exact worker_tracked only room tracked w next moved
  | event w outcome => exact event_tracked only tracked w outcome next moved
  | generator => exact generator_tracked tracked next moved
  | signal woken => exact signal_tracked tracked woken next moved

theorem start_tracked (maxEvents limit : Nat) (stored : limit = 0 ∨ limit = maxEvents) :
    Tracked maxEvents (start n limit) := by
  constructor
  case limit => exact stored
  case fits => exact fun _ => ⟨rfl, rfl⟩
  all_goals simp [start, EventLoop.start, endedCount, owedCount, Worker.start, ended]

theorem tracked_kept {maxEvents : Nat} (someWorker : 0 < n) (s : State n)
    (tracked : Tracked maxEvents s) : LimitKept maxEvents s := by
  refine ⟨tracked.kept, fun quiet all => ?_⟩
  have done (w : Fin n) :
      s.owed w = false ∧ (s.loop.error = false → maxEvents < s.calls.length) := by
    have fits := tracked.fits w
    rw [(all w).1] at fits
    exact fits (all w).2
  have nothing : owedCount s = 0 := by
    apply Finset.sum_eq_zero
    intro w _
    rw [(done w).1]
    rfl
  have more := (done ⟨0, someWorker⟩).2 quiet
  have owing := tracked.owing
  omega

end Invariant

/-! A counter that wraps around. -/
section Wrap
variable {cfg : Globals} {s t : State n}

/-- `counted` calls have been made, the first of them by worker 0 and each later one
by the next worker. -/
structure Going (cfg : Globals) (counted : Nat) (s : State n) : Prop where
  limit : s.loop.maxEvents = cfg.maxEvents
  error : s.loop.error = false
  counter : s.loop.nevents = counted % 2 ^ 64
  calls : s.calls.length = counted
  asking : ∀ w : Fin n, counted ≤ cfg.maxEvents + w →
    (s.loop.worker w).pc = .checkError ∧ (s.loop.worker w).rc = false

/-- One call of `sb_more_events`. -/
def oneCall (w : Fin n) : List (Action n) := List.replicate 4 (.worker w)

@[simp] theorem goto_goto (loop : EventLoop.State n) (w : Fin n) (first second : WorkerPc) :
    (loop.goto w first).goto w second = loop.goto w second := by
  simp [State.goto, State.set]

def counts (s : State n) (w : Fin n) (more : Bool) : State n :=
  { s with
    loop := { s.loop with nevents := (s.loop.nevents + 1) % 2 ^ 64 }.goto w (.returned more)
    calls := s.calls ++ [more]
    owed := Function.update s.owed w more }

theorem call_counts (only : OnlyEvents cfg) (limited : 0 < cfg.maxEvents)
    (limit : s.loop.maxEvents = cfg.maxEvents) (error : s.loop.error = false) (w : Fin n)
    (place : (s.loop.worker w).pc = .checkError) :
    run (step cfg) s (oneCall w) =
      some (counts s w (decide (s.loop.nevents < cfg.maxEvents))) := by
  have untimed : ∀ loop : EventLoop.State n, timeUp cfg loop = false := by
    simp [timeUp, only.untimed]
  have behind : afterLimits cfg = .returned true := by simp [afterLimits, only.unlimitedRate]
  have first : step cfg s (.worker w) = some { s with loop := s.loop.goto w .checkTime } := by
    simp [step, EventLoop.step, workerStep, record, place, error]
  have second : step cfg { s with loop := s.loop.goto w .checkTime } (.worker w) =
      some { s with loop := s.loop.goto w .loadLimit } := by
    simp [step, EventLoop.step, workerStep, record, untimed]
  have third : step cfg { s with loop := s.loop.goto w .loadLimit } (.worker w) =
      some { s with loop := s.loop.goto w (.countEvent cfg.maxEvents) } := by
    have loaded : (s.loop.goto w .loadLimit).maxEvents = cfg.maxEvents := limit
    simp [step, EventLoop.step, workerStep, record, loaded, limited]
  have fourth : step cfg { s with loop := s.loop.goto w (.countEvent cfg.maxEvents) } (.worker w) =
      some (counts s w (decide (s.loop.nevents < cfg.maxEvents))) := by
    by_cases reached : cfg.maxEvents ≤ s.loop.nevents
    · have refused : ¬ s.loop.nevents < cfg.maxEvents := Nat.not_lt.mpr reached
      simp [step, EventLoop.step, workerStep, record, counts, reached, refused,
        State.goto, State.set]
    · have passed : s.loop.nevents < cfg.maxEvents := Nat.lt_of_not_ge reached
      simp [step, EventLoop.step, workerStep, record, counts, reached, passed, behind,
        State.goto, State.set]
  simp only [oneCall, List.replicate, run, first, second, third, fourth, Option.bind_some]

def turnsBack (s : State n) (w : Fin n) : State n :=
  { s with
    loop := s.loop.goto w .checkError
    byFalse := Function.update s.byFalse w false
    executed := s.executed + (s.owed w).toNat
    owed := Function.update s.owed w false }

theorem event_turns_back (only : OnlyEvents cfg) (w : Fin n)
    (place : (s.loop.worker w).pc = .returned true) (rc : (s.loop.worker w).rc = false) :
    run (step cfg) s [.worker w, .event w .finished] = some (turnsBack s w) := by
  have stopped : ∀ loop : EventLoop.State n, sbEventStop cfg loop = loop := by
    simp [sbEventStop, only.unlimitedRate]
  have first : step cfg s (.worker w) = some { s with
      loop := s.loop.goto w .running, byFalse := Function.update s.byFalse w false } := by
    simp [step, EventLoop.step, workerStep, record, place, rc]
  simp only [run, first, Option.bind_some]
  cases loop : cfg.loop <;>
    simp [step, EventLoop.step, eventStep, record, executes, loop, stopped, turnsBack, State.goto,
      State.set]

/-- Worker 0 executes one of the first events, or the next worker is refused. -/
theorem going_next (only : OnlyEvents cfg) (limited : 0 < cfg.maxEvents) (someWorker : 0 < n)
    (counted : Nat) (going : Going cfg counted s) (word : counted < 2 ^ 64)
    (turn : counted < cfg.maxEvents + n) :
    ∃ schedule t, run (step cfg) s schedule = some t ∧ Going cfg (counted + 1) t := by
  have bound : counted - cfg.maxEvents < n := by omega
  generalize asks : (⟨counted - cfg.maxEvents, bound⟩ : Fin n) = w
  have index : (w : Nat) = counted - cfg.maxEvents := by rw [← asks]
  obtain ⟨place, rc⟩ := going.asking w (by omega)
  have called := call_counts only limited going.limit going.error w place
  have counter : s.loop.nevents = counted := by rw [going.counter, Nat.mod_eq_of_lt word]
  rw [counter] at called
  have calls : (s.calls ++ [decide (counted < cfg.maxEvents)]).length = counted + 1 := by
    rw [List.length_append, going.calls]
    rfl
  by_cases early : counted < cfg.maxEvents
  · rw [decide_eq_true early] at called calls
    have back := event_turns_back (s := counts s w true) only w (by simp [counts])
      (by simpa [counts] using rc)
    refine ⟨oneCall w ++ [.worker w, .event w .finished], turnsBack (counts s w true) w, ?_, ?_⟩
    · rw [run_append, called, Option.bind_some, back]
    · refine ⟨going.limit, going.error, ?_, calls, fun v _ => ?_⟩
      · rw [← counter]
        rfl
      · by_cases same : v = w
        · subst same
          simpa [turnsBack, counts] using rc
        · simpa [turnsBack, counts, same, State.goto, State.set] using going.asking v (by omega)
  · rw [decide_eq_false early] at called calls
    refine ⟨oneCall w, counts s w false, called, going.limit, going.error, ?_, calls, ?_⟩
    · rw [← counter]
      rfl
    · intro v later
      have apart : v ≠ w := by
        rintro rfl
        omega
      simpa [counts, apart, State.goto, State.set] using going.asking v (by omega)

theorem going_reached (only : OnlyEvents cfg) (limited : 0 < cfg.maxEvents) (someWorker : 0 < n)
    (counted : Nat) (word : counted ≤ 2 ^ 64) (turn : counted ≤ cfg.maxEvents + n) :
    ∃ schedule t, run (step cfg) (start n cfg.maxEvents) schedule = some t ∧
      Going cfg counted t := by
  induction counted with
  | zero => exact ⟨[], _, rfl, rfl, rfl, rfl, rfl, fun _ _ => ⟨rfl, rfl⟩⟩
  | succ counted ih =>
      obtain ⟨before, s, reached, going⟩ := ih (by omega) (by omega)
      obtain ⟨after, t, moved, next⟩ :=
        going_next only limited someWorker counted going (by omega) (by omega)
      refine ⟨before ++ after, t, ?_, next⟩
      rw [run_append, reached, Option.bind_some, moved]

/-- The call after 2^64 others finds the counter at 0 again. -/
theorem wrapped_call_passes (only : OnlyEvents cfg) (limited : 0 < cfg.maxEvents)
    (word : cfg.maxEvents < 2 ^ 64) (more : 2 ^ 64 < cfg.maxEvents + n) :
    ∃ schedule t, run (step cfg) (start n cfg.maxEvents) schedule = some t ∧
      t.calls[2 ^ 64]? = some true := by
  obtain ⟨before, s, reached, going⟩ :=
    going_reached (n := n) only limited (by omega) (2 ^ 64) (Nat.le_refl _) more.le
  have bound : 2 ^ 64 - cfg.maxEvents < n := by omega
  generalize asks : (⟨2 ^ 64 - cfg.maxEvents, bound⟩ : Fin n) = w
  obtain ⟨place, _⟩ := going.asking w (by rw [← asks]; simp only; omega)
  have called := call_counts only limited going.limit going.error w place
  have counter : s.loop.nevents = 0 := by rw [going.counter, Nat.mod_self]
  rw [counter, decide_eq_true limited] at called
  refine ⟨before ++ oneCall w, counts s w true, ?_, ?_⟩
  · rw [run_append, reached, Option.bind_some, called]
  · rw [← going.calls]
    exact List.getElem?_concat_length

end Wrap

/-! Which limits are kept. -/
section Limit
variable {cfg : Globals}

/-- With and without a warm-up stage, the first events and no others are let
through, unless the 64-bit counter can be counted around. -/
theorem limit_kept_iff (cfg : Globals) (n : Nat) (only : OnlyEvents cfg)
    (limited : 0 < cfg.maxEvents) (word : cfg.maxEvents < 2 ^ 64) (someWorker : 0 < n) :
    (∀ (warmup : Bool) (schedule : List (Action n)),
      Always (step cfg) (LimitKept cfg.maxEvents) (start n (if warmup then 0 else cfg.maxEvents))
        schedule) ↔ cfg.maxEvents + n ≤ 2 ^ 64 := by
  constructor
  · intro kept
    by_contra more
    obtain ⟨schedule, t, reached, passed⟩ :=
      wrapped_call_passes (n := n) only limited word (Nat.lt_of_not_ge more)
    have all := kept false schedule
    rw [← List.append_nil schedule] at all
    have first := ((always_reached _ t schedule [] all reached).calls _ _ passed).mp rfl
    omega
  · intro room warmup schedule
    have stored : (if warmup then 0 else cfg.maxEvents) = 0 ∨
        (if warmup then 0 else cfg.maxEvents) = cfg.maxEvents := by
      cases warmup
      · exact Or.inr rfl
      · exact Or.inl rfl
    exact always_mono (tracked_kept someWorker) _ schedule
      (invariant_keeps (step_tracked only room) _ schedule (start_tracked _ _ stored))

def eventsOnly (loop : LoopKind) (maxEvents : Nat) : Globals :=
  { loop := loop, txRate := 0, maxEvents := maxEvents, maxTimeNs := 0 }

theorem limit_kept_ten : (∀ (warmup : Bool) (schedule : List (Action 4)),
      Always (step (eventsOnly .c 10)) (LimitKept 10) (start 4 (if warmup then 0 else 10))
        schedule) ↔ 10 + 4 ≤ 2 ^ 64 :=
  limit_kept_iff (eventsOnly .c 10) 4 ⟨rfl, rfl⟩ (by decide) (by decide) (by decide)

/-- `--events=-1`, which is stored as 2^64 - 1, with two workers. -/
theorem minus_one_events_not_kept : ∃ schedule : List (Action 2),
    ¬ Always (step (eventsOnly .c (2 ^ 64 - 1))) (LimitKept (2 ^ 64 - 1))
      (start 2 (2 ^ 64 - 1)) schedule := by
  have only : OnlyEvents (eventsOnly .c (2 ^ 64 - 1)) := ⟨rfl, rfl⟩
  obtain ⟨schedule, t, reached, passed⟩ :=
    wrapped_call_passes (n := 2) only (by decide) (by decide) (by decide)
  refine ⟨schedule, fun all => ?_⟩
  rw [← List.append_nil schedule] at all
  have first := ((always_reached _ t schedule [] all reached).calls _ _ passed).mp rfl
  exact absurd first (by decide)

end Limit
end PteSysbench.EventLimit
