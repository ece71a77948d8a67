import PteSysbench.EventLoop

/-!
What `sb_more_events` does with the pointer of the dequeue. Its loop has two ways
out and looks at the error flag again after the dequeue has failed, so the code
behind the loop may run without an event.
-/

namespace PteSysbench.DequeuedPointer

open ActionSystem EventLoop

variable {n : Nat}

/-- `dequeued` and `touched` are history of the last call of `sb_more_events` of each
worker: the dequeue returned true, and `concurrency` or the pointer was used. -/
structure State (n : Nat) where
  loop : EventLoop.State n
  dequeued : Fin n → Bool
  touched : Fin n → Bool

/-- The increment of `concurrency` and the read through the pointer. -/
def touching : WorkerPc → Bool
  | .addConcurrency _ | .readTimestamp _ => true
  | _ => false

def dequeues (s : EventLoop.State n) (w : Fin n) : Action n → Bool
  | .worker v => v = w && (s.worker w).pc = .dequeue && !s.queue.isEmpty
  | _ => false

def touches (s : EventLoop.State n) (w : Fin n) : Action n → Bool
  | .worker v => v = w && touching (s.worker w).pc
  | _ => false

/-- A flag of the call, cleared where the next call begins. -/
def record (t : EventLoop.State n) (w : Fin n) (before now : Bool) : Bool :=
  (t.worker w).pc ≠ .checkError && (before || now)

def step (cfg : Globals) (s : State n) (a : Action n) : Option (State n) :=
  (EventLoop.step cfg s.loop a).map fun loop =>
    { loop := loop
      dequeued := fun w => record loop w (s.dequeued w) (dequeues s.loop w a)
      touched := fun w => record loop w (s.touched w) (touches s.loop w a) }

def start (n maxEvents : Nat) : State n :=
  { loop := EventLoop.start n maxEvents, dequeued := fun _ => false, touched := fun _ => false }

/-- Concurrency and the pointer are used only by a call whose dequeue returned true,
and a call that gives up has used neither. -/
structure UsesDequeued (s : State n) : Prop where
  next : ∀ w, touching (s.loop.worker w).pc = true → s.dequeued w = true
  used : ∀ w, s.touched w = true → s.dequeued w = true
  gaveUp : ∀ w, (s.loop.worker w).pc = .returned false → s.touched w = false

/-- No error is raised between a failed dequeue and the loop condition's look at it. -/
def NoLateError (s : State n) : Action n → Prop
  | .worker w => (s.loop.worker w).pc = .loopError → s.loop.error = false
  | _ => True

/-! What the place of a worker says about its call. -/
section Places
variable {cfg : Globals} {s t : EventLoop.State n} {w : Fin n} {dequeued touched : Bool}

/-- The history of a call, by the place the worker is at. -/
def Fits (dequeued touched : Bool) : WorkerPc → Prop
  | .addConcurrency _ | .readTimestamp _ => dequeued = true
  | .returned true | .running | .exiting | .left => touched = true → dequeued = true
  | _ => dequeued = false ∧ touched = false

/-- A worker that takes no step keeps its history, also when it is woken up. -/
theorem fits_other (fits : Fits dequeued touched (s.worker w).pc)
    (place : (t.worker w).pc = (s.worker w).pc ∨
      (s.worker w).pc = .asleep ∧ (t.worker w).pc = .relock) :
    Fits (record t w dequeued false) (record t w touched false) (t.worker w).pc := by
  rcases place with same | ⟨down, up⟩
  · cases here : (s.worker w).pc <;> rw [here] at fits same <;> simp_all [record, Fits]
  · rw [down] at fits
    rw [up]
    simp_all [record, Fits]

theorem fits_worker (limited : 0 < cfg.txRate) (fits : Fits dequeued touched (s.worker w).pc)
    (quiet : (s.worker w).pc = .loopError → s.error = false)
    (taken : workerStep cfg s w = some t) :
    Fits (record t w dequeued (dequeues s w (.worker w)))
      (record t w touched (touches s w (.worker w))) (t.worker w).pc := by
  cases place : (s.worker w).pc <;> rw [place] at fits <;>
    simp only [workerStep, place] at taken
  case asleep | running | left => cases taken
  case lock | relock =>
    obtain ⟨_, taken⟩ := Option.ite_none_right_eq_some.mp taken
    obtain rfl := Option.some.inj taken
    simpa [place, record, dequeues, touches, touching, Fits] using fits
  case dequeue =>
    cases listed : s.queue with
    | nil =>
        simp only [listed, Option.some.injEq] at taken
        subst taken
        simpa [place, listed, record, dequeues, touches, touching, Fits] using fits
    | cons ptr rest =>
        simp only [listed, Option.some.injEq] at taken
        subst taken
        simp [place, listed, record, dequeues, Fits]
  -- the only way round the queue, which `quiet` excludes
  case loopError =>
    obtain rfl := Option.some.inj taken
    simpa [place, quiet place, record, dequeues, touches, touching, Fits] using fits
  case readTimestamp ptr =>
    cases ptr with
    | none => cases taken
    | some ptr =>
        obtain rfl := Option.some.inj taken
        have taken_ : dequeued = true := fits
        simp [place, taken_, record, dequeues, touches, touching, Fits]
  case addConcurrency ptr =>
    obtain rfl := Option.some.inj taken
    have taken_ : dequeued = true := fits
    simp [taken_, record, Fits]
  case checkError | recheckError =>
    obtain rfl := Option.some.inj taken
    cases s.error <;> simpa [place, record, dequeues, touches, touching, Fits] using fits
  case checkTime | recheckTime =>
    obtain rfl := Option.some.inj taken
    cases timeUp cfg s <;> simpa [place, record, dequeues, touches, touching, Fits] using fits
  case loadLimit =>
    obtain rfl := Option.some.inj taken
    by_cases most : 0 < s.maxEvents <;>
      simpa [place, most, limited, afterLimits, record, dequeues, touches, touching, Fits]
        using fits
  case countEvent limit =>
    obtain rfl := Option.some.inj taken
    by_cases reached : limit ≤ s.nevents <;>
      simpa [place, reached, limited, afterLimits, record, dequeues, touches, touching, Fits]
        using fits
  case returned more =>
    obtain rfl := Option.some.inj taken
    cases more <;> cases failed : (s.worker w).rc <;>
      simp_all [record, dequeues, touches, touching, Fits]
  case wait | unlock | exiting =>
    obtain rfl := Option.some.inj taken
    simpa [place, record, dequeues, touches, touching, Fits] using fits

/-- An event leaves the history of the call before it, or begins the next call. -/
theorem fits_event {outcome : EventOutcome} (fits : Fits dequeued touched (s.worker w).pc)
    (taken : eventStep cfg s w outcome = some t) :
    Fits (record t w dequeued false) (record t w touched false) (t.worker w).pc := by
  obtain ⟨place, taken⟩ := Option.ite_none_right_eq_some.mp taken
  rw [place] at fits
  cases loop : cfg.loop <;> cases outcome <;> simp only [loop, reduceCtorEq] at taken
  all_goals
    obtain rfl := Option.some.inj taken
    simp_all [record, Fits]

end Places

/-! Along a run. -/
section Runs
variable {cfg : Globals}

def Consistent (s : State n) : Prop :=
  ∀ w, Fits (s.dequeued w) (s.touched w) (s.loop.worker w).pc

theorem start_consistent (n maxEvents : Nat) : Consistent (start n maxEvents) :=
  fun _ => ⟨rfl, rfl⟩

/-- What the history shows is that of a dequeue, wherever the worker is. -/
theorem fits_used {dequeued touched : Bool} (pc : WorkerPc) (fits : Fits dequeued touched pc)
    (used : touched = true) : dequeued = true := by
  cases pc
  case addConcurrency | readTimestamp => exact fits
  case running | exiting | left => exact fits used
  case returned more =>
    cases more with
    | true => exact fits used
    | false => exact absurd used (by simp [fits.2])
  all_goals exact absurd used (by simp [fits.2])

theorem consistent_uses (s : State n) (consistent : Consistent s) : UsesDequeued s := by
  refine ⟨fun w about => ?_, fun w => fits_used _ (consistent w), fun w place => ?_⟩
  · have fits := consistent w
    cases place : (s.loop.worker w).pc <;> rw [place] at fits about <;>
      first | exact fits | cases about
  · have fits := consistent w
    rw [place] at fits
    exact fits.2

/-- The places of all workers but the one that takes a step, or of all of them. -/
theorem other_places (s t : EventLoop.State n) (a : Action n) (w : Fin n)
    (taken : EventLoop.step cfg s a = some t) (worker : a ≠ .worker w)
    (event : ∀ outcome, a ≠ .event w outcome) :
    (t.worker w).pc = (s.worker w).pc ∨
      (s.worker w).pc = .asleep ∧ (t.worker w).pc = .relock := by
  cases a with
  | tick now =>
      obtain ⟨_, taken⟩ := Option.ite_none_right_eq_some.mp taken
      obtain rfl := Option.some.inj taken
      exact Or.inl rfl
  | raiseError | endWarmup =>
      obtain rfl := Option.some.inj taken
      exact Or.inl rfl
  | generator =>
      cases place : s.generator <;>
        simp only [EventLoop.step, generatorStep, place, reduceCtorEq] at taken
      case enqueue =>
        split at taken
        · obtain rfl := Option.some.inj taken
          exact Or.inl rfl
        · obtain rfl := Option.some.inj taken
          exact Or.inl rfl
      case broadcast =>
        obtain rfl := Option.some.inj taken
        rcases Worker.hear_broadcast_cases (s.worker w) with ⟨down, up⟩ | ⟨_, kept, _⟩
        · exact Or.inr ⟨down, up⟩
        · exact Or.inl kept
      all_goals
        obtain rfl := Option.some.inj taken
        exact Or.inl rfl
  | signal woken =>
      obtain ⟨⟨_, heard, _⟩, taken⟩ := Option.ite_none_right_eq_some.mp taken
      obtain rfl := Option.some.inj taken
      cases here : woken w with
      | true => exact Or.inr ⟨heard w here, by simp [Worker.hearSignal, here]⟩
      | false =>
          left
          cases blocked : (s.worker w).pc.blocking <;> simp [Worker.hearSignal, here, blocked]
  | spuriousWakeup v =>
      obtain ⟨asleep, taken⟩ := Option.ite_none_right_eq_some.mp taken
      obtain rfl := Option.some.inj taken
      by_cases own : w = v
      · subst own
        exact Or.inr ⟨asleep, by simp⟩
      · exact Or.inl (by simp [own])
  | worker v =>
      have other : w ≠ v := by
        rintro rfl
        exact worker rfl
      exact Or.inl (by rw [(worker_step_unchanged taken).worker w other])
  | event v outcome =>
      have other : w ≠ v := by
        rintro rfl
        exact event outcome rfl
      exact Or.inl (by rw [(event_step_unchanged taken).worker w other])

theorem step_consistent (limited : 0 < cfg.txRate) (s : State n) (a : Action n) (t : State n)
    (consistent : Consistent s) (quiet : NoLateError s a) (taken : step cfg s a = some t) :
    Consistent t := by
  obtain ⟨loop, moved, rfl⟩ := Option.map_eq_some_iff.mp taken
  intro w
  by_cases worker : a = .worker w
  · subst worker
    exact fits_worker limited (consistent w) quiet moved
  · have still : dequeues s.loop w a = false ∧ touches s.loop w a = false := by
      cases a <;> simp_all [dequeues, touches]
    simp only [still]
    by_cases event : ∃ outcome, a = .event w outcome
    · obtain ⟨outcome, rfl⟩ := event
      exact fits_event (consistent w) moved
    · exact fits_other (consistent w)
        (other_places s.loop loop a w moved worker fun outcome same => event ⟨outcome, same⟩)

/-- A late error leads behind the loop without an event. -/
theorem step_quiet (s : State n) (a : Action n) (t : State n) (consistent : Consistent s)
    (taken : step cfg s a = some t) (uses : UsesDequeued t) : NoLateError s a := by
  cases a with
  | worker w =>
      intro place
      obtain ⟨loop, moved, rfl⟩ := Option.map_eq_some_iff.mp taken
      have fits := consistent w
      rw [place] at fits
      cases raised : s.loop.error with
      | false => rfl
      | true =>
          simp only [EventLoop.step, workerStep, place, raised, ↓reduceIte,
            Option.some.injEq] at moved
          subst moved
          have dequeued := uses.next w (by simp [touching])
          simp [record, dequeues, place, fits.1] at dequeued
  | _ => trivial

theorem uses_dequeued_iff (cfg : Globals) (limited : 0 < cfg.txRate) (n maxEvents : Nat)
    (schedule : List (Action n)) :
    Always (step cfg) UsesDequeued (start n maxEvents) schedule ↔
      Guarded (step cfg) NoLateError (start n maxEvents) schedule :=
  always_iff_guarded consistent_uses (step_consistent limited) step_quiet _ schedule
    (start_consistent n maxEvents)

def limitedRate : Globals := { loop := .lua, txRate := 100, maxEvents := 0, maxTimeNs := 0 }

/-- One worker takes the only event; the other finds the queue empty, the event fails
and its worker raises the error before the other looks at it. -/
def errorAfterDequeue : List (Action 2) :=
  List.replicate 3 .generator ++ [.signal fun _ => false] ++
    List.replicate 7 (.worker (Fin.last 1)) ++ List.replicate 4 (.worker ⟨0, Nat.two_pos⟩) ++
    [.event (Fin.last 1) .failed, .worker (Fin.last 1), .worker ⟨0, Nat.two_pos⟩]

theorem uses_dequeued_two :
    Always (step limitedRate) UsesDequeued (start 2 0) errorAfterDequeue ↔
      Guarded (step limitedRate) NoLateError (start 2 0) errorAfterDequeue :=
  uses_dequeued_iff limitedRate (by decide) 2 0 errorAfterDequeue

/-- The worker goes on to the increment and to a NULL pointer. -/
theorem null_behind_the_loop :
    ∃ t, run (step limitedRate) (start 2 0) errorAfterDequeue = some t ∧
      (t.loop.worker 0).pc = .addConcurrency none ∧ t.dequeued 0 = false ∧
      ¬ UsesDequeued t := by
  refine ⟨_, rfl, rfl, rfl, fun uses => ?_⟩
  have dequeued := uses.next 0 rfl
  cases dequeued

end Runs
end PteSysbench.DequeuedPointer
