import PteSysbench.EventLoop
import Mathlib.Data.List.Range

/-!
The timestamps of limited-rate mode. The ring holds pointers into `queue_array`, and
gives a place back when a worker dequeues, which is before the worker reads the
timestamp behind the pointer.
-/

namespace PteSysbench.EventQueue

open ActionSystem EventLoop

variable {n : Nat}

/-- Everything but `loop` is history. Events are numbered in the order of generation:
`stored` is the timestamp the generator is about to enqueue, `stamps` has those it has
enqueued, `queued` and `dequeued` the numbers of the events, `held` the event a worker
has dequeued last, and `reads` the timestamps read, with their event. -/
structure State (n : Nat) where
  loop : EventLoop.State n
  stored : Nat
  stamps : List Nat
  queued : List Nat
  dequeued : List Nat
  held : Fin n → Option Nat
  reads : List (Option Nat × Nat)

def recordGenerator (s : State n) (next : EventLoop.State n) : State n :=
  match s.loop.generator, next.generator with
  | .store, _ => { s with loop := next, stored := s.loop.clock }
  | .enqueue, .signal =>
      { s with
        loop := next
        stamps := s.stamps ++ [s.stored]
        queued := s.queued ++ [s.stamps.length] }
  | _, _ => { s with loop := next }

def recordWorker (s : State n) (next : EventLoop.State n) (w : Fin n) : State n :=
  match (s.loop.worker w).pc with
  | .dequeue =>
      match s.queued with
      | event :: rest =>
          { s with
            loop := next
            queued := rest
            dequeued := s.dequeued ++ [event]
            held := Function.update s.held w (some event) }
      | [] => { s with loop := next }
  | .readTimestamp (some ptr) =>
      { s with loop := next, reads := s.reads ++ [(s.held w, s.loop.queueArray ptr)] }
  | _ => { s with loop := next }

def record (s : State n) (next : EventLoop.State n) : Action n → State n
  | .generator => recordGenerator s next
  | .worker w => recordWorker s next w
  | _ => { s with loop := next }

def step (cfg : Globals) (s : State n) (a : Action n) : Option (State n) :=
  (EventLoop.step cfg s.loop a).map fun next => record s next a

def start (n maxEvents : Nat) : State n :=
  { loop := EventLoop.start n maxEvents, stored := 0, stamps := [], queued := [], dequeued := []
    held := fun _ => none, reads := [] }

/-- The events come out once each and in their order, and what is read for an event is
what was stored for it. -/
structure QueueSound (s : State n) : Prop where
  inOrder : s.dequeued ++ s.queued = List.range s.stamps.length
  reads : ∀ event value, (event, value) ∈ s.reads →
    ∃ number, event = some number ∧ s.stamps[number]? = some value

/-- What the worker has dequeued and has not read through. -/
def pointer : WorkerPc → Option Nat
  | .addConcurrency ptr | .readTimestamp ptr => ptr
  | _ => none

/-- The generator stores into no slot that a worker is still to read. -/
def Unheld (s : State n) : Action n → Prop
  | .generator =>
      s.loop.generator = .store → ∀ w, pointer (s.loop.worker w).pc ≠ some s.loop.index
  | _ => True

/-! What every step keeps that meets the condition. -/
section Invariant
variable {cfg : Globals} {s t : State n}

structure Tracked (s : State n) : Prop where
  slots : s.loop.queue = s.queued.map (· % maxQueueLen)
  inOrder : s.dequeued ++ s.queued = List.range s.stamps.length
  room : s.queued.length ≤ ringCapacity
  index : s.loop.index = (if s.loop.generator = .signal then s.stamps.length - 1
    else s.stamps.length) % maxQueueLen
  signalled : s.loop.generator = .signal → 0 < s.stamps.length
  stored : s.loop.generator = .enqueue → s.loop.queueArray s.loop.index = s.stored
  values : ∀ event ∈ s.queued, s.stamps[event]? = some (s.loop.queueArray (event % maxQueueLen))
  held : ∀ w ptr, pointer (s.loop.worker w).pc = some ptr →
    ∃ event, s.held w = some event ∧ s.stamps[event]? = some (s.loop.queueArray ptr)
  reads : ∀ event value, (event, value) ∈ s.reads →
    ∃ number, event = some number ∧ s.stamps[number]? = some value

theorem tracked_sound (s : State n) (tracked : Tracked s) : QueueSound s :=
  ⟨tracked.inOrder, tracked.reads⟩

/-- The generator's slot is not one of those in the ring. -/
theorem slot_not_queued (tracked : Tracked s) (event : Nat) (queued : event ∈ s.queued) :
    event % maxQueueLen ≠ s.stamps.length % maxQueueLen := by
  have order := tracked.inOrder
  have room := tracked.room
  have total : s.dequeued.length + s.queued.length = s.stamps.length := by
    rw [← List.length_append, order, List.length_range]
  obtain ⟨i, bound, here⟩ := List.getElem_of_mem queued
  have number : event = s.dequeued.length + i := by
    have entry : (s.dequeued ++ s.queued)[s.dequeued.length + i]? = some event := by
      rw [List.getElem?_append_right (by omega), Nat.add_sub_cancel_left,
        List.getElem?_eq_getElem bound, here]
    rw [order, List.getElem?_range (by omega)] at entry
    exact (Option.some.inj entry).symm
  unfold ringCapacity maxQueueLen at *
  omega

theorem pointer_after_limits (cfg : Globals) : pointer (afterLimits cfg) = none := by
  unfold afterLimits
  split <;> rfl

theorem pointer_if (c : Prop) [Decidable c] (yes no : WorkerPc) (first : pointer yes = none)
    (second : pointer no = none) : pointer (if c then yes else no) = none := by
  split
  · exact first
  · exact second

/-- No step of a worker writes to the array or moves the generator, and only the
dequeue takes from the ring and gives a pointer. -/
theorem worker_step_array {s t : EventLoop.State n} {w : Fin n}
    (moved : workerStep cfg s w = some t) : t.queueArray = s.queueArray ∧ t.index = s.index ∧
      ((s.worker w).pc ≠ .dequeue → t.queue = s.queue ∧
        ∀ ptr, pointer (t.worker w).pc = some ptr → pointer (s.worker w).pc = some ptr) := by
  cases place : (s.worker w).pc <;> simp only [workerStep, place, reduceCtorEq] at moved
  case lock | relock =>
    obtain ⟨_, moved⟩ := Option.ite_none_right_eq_some.mp moved
    obtain rfl := Option.some.inj moved
    exact ⟨rfl, rfl, fun _ => ⟨rfl, by simp [pointer]⟩⟩
  case dequeue =>
    cases listed : s.queue with
    | nil =>
        simp only [listed, Option.some.injEq] at moved
        exact moved ▸ ⟨rfl, rfl, fun other => absurd rfl other⟩
    | cons ptr rest =>
        simp only [listed, Option.some.injEq] at moved
        exact moved ▸ ⟨rfl, rfl, fun other => absurd rfl other⟩
  case readTimestamp ptr =>
    cases ptr with
    | none => cases moved
    | some ptr =>
        obtain rfl := Option.some.inj moved
        exact ⟨rfl, rfl, fun _ => ⟨rfl, by simp [pointer]⟩⟩
  case addConcurrency ptr =>
    obtain rfl := Option.some.inj moved
    exact ⟨rfl, rfl, fun _ => ⟨rfl, by simp [pointer]⟩⟩
  all_goals
    obtain rfl := Option.some.inj moved
    refine ⟨rfl, rfl, fun _ => ⟨rfl, fun ptr here => ?_⟩⟩
    rw [State.goto_worker_same] at here
    first
      | cases here
      | cases (pointer_if _ _ _ rfl rfl).symm.trans here
      | cases (pointer_if _ _ _ rfl (pointer_after_limits cfg)).symm.trans here

theorem event_step_array {s t : EventLoop.State n} {w : Fin n} {outcome : EventOutcome}
    (moved : eventStep cfg s w outcome = some t) :
    t.queueArray = s.queueArray ∧ t.index = s.index ∧ t.queue = s.queue ∧
      pointer (t.worker w).pc = none := by
  obtain ⟨place, moved⟩ := Option.ite_none_right_eq_some.mp moved
  have stopped : (sbEventStop cfg s).queueArray = s.queueArray ∧
      (sbEventStop cfg s).index = s.index ∧ (sbEventStop cfg s).queue = s.queue := by
    unfold sbEventStop
    split <;> exact ⟨rfl, rfl, rfl⟩
  obtain ⟨array, index, queue⟩ := stopped
  cases loop : cfg.loop <;> cases outcome <;>
    simp only [loop, reduceCtorEq, Option.some.injEq] at moved
  all_goals
    subst moved
    refine ⟨?_, ?_, ?_, ?_⟩
  all_goals first
    | rfl
    | exact array
    | exact index
    | exact queue
    | simp [pointer, place]

/-- Neither the ring nor the generator's place in it changes, and nobody takes an event. -/
theorem keep_tracked (tracked : Tracked s) (next : EventLoop.State n)
    (array : next.queueArray = s.loop.queueArray ∧ next.index = s.loop.index)
    (queue : next.queue = s.loop.queue)
    (signal : next.generator = .signal ↔ s.loop.generator = .signal)
    (enqueue : next.generator = .enqueue → s.loop.generator = .enqueue)
    (pointers : ∀ w ptr, pointer (next.worker w).pc = some ptr →
      pointer (s.loop.worker w).pc = some ptr) : Tracked { s with loop := next } := by
  constructor
  case slots => exact queue.trans tracked.slots
  case inOrder => exact tracked.inOrder
  case room => exact tracked.room
  case index => simp only [array.2, signal, tracked.index]
  case signalled => exact fun here => tracked.signalled (signal.mp here)
  case stored =>
    rw [array.1, array.2]
    exact fun here => tracked.stored (enqueue here)
  case values =>
    rw [array.1]
    exact tracked.values
  case held =>
    intro w ptr here
    rw [array.1]
    exact tracked.held w ptr (pointers w ptr here)
  case reads => exact tracked.reads

theorem move_tracked (tracked : Tracked s) (w : Fin n) (next : EventLoop.State n)
    (array : next.queueArray = s.loop.queueArray ∧ next.index = s.loop.index)
    (generator : next.generator = s.loop.generator) (queue : next.queue = s.loop.queue)
    (others : ∀ v, v ≠ w → next.worker v = s.loop.worker v)
    (own : ∀ ptr, pointer (next.worker w).pc = some ptr →
      pointer (s.loop.worker w).pc = some ptr) :
    Tracked { s with loop := next } := by
  apply keep_tracked tracked next array queue (by rw [generator]) (by rw [generator]; exact id)
  intro v ptr here
  by_cases same : v = w
  · exact same ▸ own ptr (same ▸ here)
  · rwa [others v same] at here

/-- The head of the ring goes to the worker, with the timestamp behind it. -/
theorem dequeue_tracked (tracked : Tracked s) (w : Fin n) (next : EventLoop.State n)
    (event : Nat) (rest : List Nat) (events : s.queued = event :: rest)
    (place : (s.loop.worker w).pc = .dequeue) (moved : workerStep cfg s.loop w = some next) :
    Tracked { s with
      loop := next
      queued := rest
      dequeued := s.dequeued ++ [event]
      held := Function.update s.held w (some event) } := by
  have unchanged := worker_step_unchanged moved
  obtain ⟨array, index, _⟩ := worker_step_array moved
  have slots := tracked.slots
  have order := tracked.inOrder
  have room := tracked.room
  have value := tracked.values event (by rw [events]; exact List.mem_cons_self)
  rw [events] at order room slots
  rw [List.map_cons] at slots
  simp only [workerStep, place, slots, Option.some.injEq] at moved
  have own : pointer (next.worker w).pc = some (event % maxQueueLen) := by
    simp [← moved, pointer]
  constructor
  case slots => exact moved ▸ rfl
  case inOrder => rw [List.append_assoc, List.singleton_append, order]
  case room => exact (Nat.le_succ _).trans room
  case index =>
    simp only [index, unchanged.generator]
    exact tracked.index
  case signalled =>
    simp only [unchanged.generator]
    exact tracked.signalled
  case stored =>
    simp only [array, index, unchanged.generator]
    exact tracked.stored
  case values =>
    simp only [array]
    intro other member
    exact tracked.values other (by rw [events]; exact List.mem_cons_of_mem event member)
  case held =>
    simp only [array]
    intro v ptr here
    -- the event is held by the worker that took it
    by_cases same : v = w
    · subst same
      obtain rfl := Option.some.inj (own.symm.trans here)
      exact ⟨event, Function.update_self .., value⟩
    · rw [unchanged.worker v same] at here
      rw [Function.update_of_ne same]
      exact tracked.held v ptr here
  case reads => exact tracked.reads

theorem worker_tracked (tracked : Tracked s) (w : Fin n) (next : EventLoop.State n)
    (moved : workerStep cfg s.loop w = some next) : Tracked (recordWorker s next w) := by
  have unchanged := worker_step_unchanged moved
  obtain ⟨array, index, others⟩ := worker_step_array moved
  have still (queue : next.queue = s.loop.queue)
      (own : ∀ ptr, pointer (next.worker w).pc = some ptr →
        pointer (s.loop.worker w).pc = some ptr) : Tracked { s with loop := next } :=
    move_tracked tracked w next ⟨array, index⟩ unchanged.generator queue unchanged.worker own
  unfold recordWorker
  split
  · rename_i place
    split
    · rename_i event rest events
      exact dequeue_tracked tracked w next event rest events place moved
    · rename_i none_
      have slots := tracked.slots
      rw [none_, List.map_nil] at slots
      simp only [workerStep, place, slots, Option.some.injEq] at moved
      exact still (moved ▸ rfl) (by simp [← moved, pointer])
  · rename_i ptr place
    obtain ⟨queue, own⟩ := others (by simp [place])
    refine { still queue own with reads := fun event value member => ?_ }
    rcases List.mem_append.mp member with earlier | last
    · exact tracked.reads event value earlier
    · obtain ⟨rfl, rfl⟩ := Prod.mk.inj (List.mem_singleton.mp last)
      exact tracked.held w ptr (by rw [place]; rfl)
  · rename_i notDequeue _
    obtain ⟨queue, own⟩ := others notDequeue
    exact still queue own

/-- The slot is free: it is not in the ring, and no worker holds it. -/
theorem store_tracked (tracked : Tracked s) (place : s.loop.generator = .store)
    (unheld : ∀ w, pointer (s.loop.worker w).pc ≠ some s.loop.index) :
    Tracked { s with
      stored := s.loop.clock
      loop := { s.loop with
        queueArray := Function.update s.loop.queueArray s.loop.index s.loop.clock
        generator := .enqueue } } := by
  have index : s.loop.index = s.stamps.length % maxQueueLen := by
    simpa [place] using tracked.index
  constructor
  case slots => exact tracked.slots
  case inOrder => exact tracked.inOrder
  case room => exact tracked.room
  case index => exact index
  case signalled => exact fun here => by cases here
  case stored => exact fun _ => Function.update_self ..
  case values =>
    intro event queued
    have other : event % maxQueueLen ≠ s.loop.index :=
      index ▸ slot_not_queued tracked event queued
    simp only [Function.update_of_ne other]
    exact tracked.values event queued
  case held =>
    intro w ptr here
    have other : ptr ≠ s.loop.index := fun same => unheld w (same ▸ here)
    simp only [Function.update_of_ne other]
    exact tracked.held w ptr here
  case reads => exact tracked.reads

/-- The event gets the next number. -/
theorem enqueue_tracked (tracked : Tracked s) (place : s.loop.generator = .enqueue)
    (room : s.loop.queue.length < ringCapacity) :
    Tracked { s with
      stamps := s.stamps ++ [s.stored]
      queued := s.queued ++ [s.stamps.length]
      loop := { s.loop with queue := s.loop.queue ++ [s.loop.index], generator := .signal } } := by
  have index : s.loop.index = s.stamps.length % maxQueueLen := by
    simpa [place] using tracked.index
  have older (event : Nat) (value : Nat) (known : s.stamps[event]? = some value) :
      (s.stamps ++ [s.stored])[event]? = some value := by
    obtain ⟨bound, _⟩ := List.getElem?_eq_some_iff.mp known
    rwa [List.getElem?_append_left bound]
  constructor
  case slots =>
    rw [List.map_append, ← tracked.slots, index]
    rfl
  case inOrder =>
    rw [← List.append_assoc, tracked.inOrder, List.length_append, List.length_singleton,
      List.range_succ]
  case room =>
    have same : s.queued.length = s.loop.queue.length := by rw [tracked.slots, List.length_map]
    simp only [List.length_append, List.length_singleton]
    omega
  case index => simpa using index
  case signalled => exact fun _ => by simp
  case stored => exact fun here => by cases here
  case values =>
    intro event queued
    rcases List.mem_append.mp queued with earlier | last
    · exact older _ _ (tracked.values event earlier)
    · -- its time was stored before the event was put in the queue
      obtain rfl := List.mem_singleton.mp last
      rw [List.getElem?_append_right le_rfl, Nat.sub_self, ← index, tracked.stored place]
      rfl
  case held =>
    intro w ptr here
    obtain ⟨event, held, known⟩ := tracked.held w ptr here
    exact ⟨event, held, older _ _ known⟩
  case reads =>
    intro event value read
    obtain ⟨number, named, known⟩ := tracked.reads event value read
    exact ⟨number, named, older _ _ known⟩

theorem generator_tracked (tracked : Tracked s) (next : EventLoop.State n)
    (unheld : Unheld s .generator) (moved : generatorStep cfg s.loop = some next) :
    Tracked (recordGenerator s next) := by
  cases place : s.loop.generator <;> simp only [generatorStep, place, reduceCtorEq] at moved
  case top =>
    obtain rfl := Option.some.inj moved
    simp only [recordGenerator, place]
    refine keep_tracked tracked _ ⟨rfl, rfl⟩ rfl ?_ ?_ fun _ _ => id
    · cases timeUp cfg s.loop <;> simp [place]
    · cases timeUp cfg s.loop <;> simp
  case store =>
    obtain rfl := Option.some.inj moved
    simp only [recordGenerator, place]
    exact store_tracked tracked place (unheld place)
  case enqueue =>
    by_cases room : s.loop.queue.length < ringCapacity
    · rw [if_pos room] at moved
      obtain rfl := Option.some.inj moved
      simp only [recordGenerator, place]
      exact enqueue_tracked tracked place room
    · rw [if_neg room] at moved
      obtain rfl := Option.some.inj moved
      simp only [recordGenerator, place]
      exact keep_tracked tracked _ ⟨rfl, rfl⟩ rfl (by simp [place]) (by simp) fun _ _ => id
  case full =>
    obtain rfl := Option.some.inj moved
    simp only [recordGenerator, place]
    exact keep_tracked tracked _ ⟨rfl, rfl⟩ rfl (by simp [place]) (by simp) fun _ _ => id
  case broadcast =>
    obtain rfl := Option.some.inj moved
    simp only [recordGenerator, place]
    refine keep_tracked tracked _ ⟨rfl, rfl⟩ rfl (by simp [place]) (by simp) ?_
    intro w ptr here
    rcases (s.loop.worker w).hear_broadcast_cases with ⟨_, up⟩ | ⟨_, kept, _⟩
    · simp only [up] at here
      cases here
    · rwa [← kept]

theorem signal_tracked (tracked : Tracked s) (woken : Fin n → Bool) (next : EventLoop.State n)
    (moved : signalStep s.loop woken = some next) : Tracked { s with loop := next } := by
  obtain ⟨⟨place, _, _⟩, moved⟩ := Option.ite_none_right_eq_some.mp moved
  obtain rfl := Option.some.inj moved
  have some_ := tracked.signalled place
  have index : s.loop.index = (s.stamps.length - 1) % maxQueueLen := by
    simpa [place] using tracked.index
  constructor
  case slots => exact tracked.slots
  case inOrder => exact tracked.inOrder
  case room => exact tracked.room
  case index =>
    rw [if_neg (by simp), index, Nat.mod_add_mod, Nat.sub_add_cancel some_]
  case signalled => exact fun here => by cases here
  case stored => exact fun here => by cases here
  case values => exact tracked.values
  case held =>
    intro w ptr here
    apply tracked.held w ptr
    cases chosen : woken w
    · simp only [chosen, Worker.hearSignal, Bool.false_eq_true, ↓reduceIte] at here
      split at here <;> exact here
    · simp only [chosen, Worker.hearSignal, ↓reduceIte] at here
      cases here
  case reads => exact tracked.reads

theorem step_tracked (tracked : Tracked s) (a : Action n) (unheld : Unheld s a)
    (taken : step cfg s a = some t) : Tracked t := by
  obtain ⟨next, moved, rfl⟩ := Option.map_eq_some_iff.mp taken
  cases a with
  | tick now =>
      obtain ⟨_, moved⟩ := Option.ite_none_right_eq_some.mp moved
      obtain rfl := Option.some.inj moved
      exact keep_tracked tracked _ ⟨rfl, rfl⟩ rfl Iff.rfl id fun _ _ => id
  | raiseError =>
      obtain rfl := Option.some.inj moved
      exact keep_tracked tracked _ ⟨rfl, rfl⟩ rfl Iff.rfl id fun _ _ => id
  | endWarmup =>
      obtain rfl := Option.some.inj moved
      exact keep_tracked tracked _ ⟨rfl, rfl⟩ rfl Iff.rfl id fun _ _ => id
  | generator => exact generator_tracked tracked next unheld moved
  | signal woken => exact signal_tracked tracked woken next moved
  | spuriousWakeup w =>
      obtain ⟨_, moved⟩ := Option.ite_none_right_eq_some.mp moved
      obtain rfl := Option.some.inj moved
      refine move_tracked tracked w _ ⟨rfl, rfl⟩ rfl rfl ?_ (by simp [pointer])
      exact fun v other => State.goto_worker_other _ w v _ other
  | worker w => exact worker_tracked tracked w next moved
  | event w outcome =>
      have unchanged := event_step_unchanged moved
      obtain ⟨array, index, queue, none_⟩ := event_step_array moved
      apply move_tracked tracked w next ⟨array, index⟩ unchanged.generator queue
      · exact unchanged.worker
      · simp [none_]

theorem start_tracked (n maxEvents : Nat) : Tracked (start n maxEvents) where
  slots := rfl
  inOrder := rfl
  room := Nat.zero_le _
  index := rfl
  signalled here := by cases here
  stored here := by cases here
  values event queued := absurd queued List.not_mem_nil
  held w ptr here := by cases here
  reads event value read := absurd read List.not_mem_nil

theorem queue_sound_when_unheld (cfg : Globals) (n maxEvents : Nat) (schedule : List (Action n))
    (unheld : Guarded (step cfg) Unheld (start n maxEvents) schedule) :
    Always (step cfg) QueueSound (start n maxEvents) schedule :=
  always_mono tracked_sound _ schedule
    (guarded_keeps (fun _ a _ tracked free taken => step_tracked tracked a free taken) _ schedule
      (start_tracked n maxEvents) unheld)

def limitedRate : Globals := { loop := .c, txRate := 100, maxEvents := 0, maxTimeNs := 0 }

/-- An event is generated, and the worker goes so many steps: it dequeues in the fourth and
reads the timestamp in the sixth. -/
def oneEvent (steps : Nat) : List (Action 1) :=
  List.replicate 3 .generator ++
    .signal (fun _ => false) :: List.replicate steps (.worker (Fin.last 0))

theorem queue_sound_one_event :
    Always (step limitedRate) QueueSound (start 1 0) (oneEvent 6) ∧
      (run (step limitedRate) (start 1 0) (oneEvent 6)).map State.reads = some [(some 0, 0)] := by
  refine ⟨queue_sound_when_unheld limitedRate 1 0 (oneEvent 6) ?_, by decide +kernel⟩
  rintro _ ⟨⟩
  refine ⟨nofun, ?_⟩
  rintro _ ⟨⟩
  refine ⟨fun _ w => nofun, ?_⟩
  rintro _ ⟨⟩
  refine ⟨nofun, ?_⟩
  apply guarded_of_free
  intro a member s
  rcases List.mem_cons.mp member with rfl | worker
  · trivial
  · obtain rfl := List.eq_of_mem_replicate worker
    trivial

end Invariant

/-! A worker stalls between the dequeue and the read. -/
section Overwritten

/-- The generator's round for one event. -/
def eventRound : List (Action 1) := List.replicate 3 .generator ++ [.signal fun _ => false]

/-- The only worker holds the event in slot 0, and `made` events were generated. -/
structure Stalled (made : Nat) (s : State 1) : Prop where
  clock : s.loop.clock = 0
  generator : s.loop.generator = .top
  index : s.loop.index = made % maxQueueLen
  room : s.loop.queue.length + 1 = made
  worker : ∀ w, (s.loop.worker w).pc = .addConcurrency (some 0)
  held : ∀ w, s.held w = some 0
  oldest : s.stamps[0]? = some 0

theorem stalled_reached :
    ∃ s, run (step limitedRate) (start 1 0) (oneEvent 4) = some s ∧ Stalled 1 s := by
  refine ⟨_, rfl, rfl, rfl, rfl, rfl, fun w => ?_, fun w => ?_, rfl⟩
  · match w with
    | 0 => rfl
  · match w with
    | 0 => rfl

def afterRound (s : State 1) : State 1 :=
  { s with
    loop := { s.loop with
      queueArray := Function.update s.loop.queueArray s.loop.index s.loop.clock
      queue := s.loop.queue ++ [s.loop.index]
      generator := .top
      index := (s.loop.index + 1) % maxQueueLen
      worker := fun w => (s.loop.worker w).hearSignal false }
    stored := s.loop.clock
    stamps := s.stamps ++ [s.loop.clock]
    queued := s.queued ++ [s.stamps.length] }

theorem round_runs (made : Nat) (s : State 1) (stalled : Stalled made s)
    (room : made < maxQueueLen) :
    run (step limitedRate) s eventRound = some (afterRound s) := by
  have free : s.loop.queue.length < ringCapacity := by
    have := stalled.room
    unfold ringCapacity
    omega
  have early : timeUp limitedRate s.loop = false := rfl
  have awake (w : Fin 1) : (s.loop.worker w).pc ≠ .asleep := by simp [stalled.worker]
  simp [eventRound, run, step, EventLoop.step, generatorStep, signalStep, record,
    recordGenerator, stalled.generator, early, free, awake, afterRound]

theorem round_stalled (made : Nat) (s : State 1) (stalled : Stalled made s) :
    Stalled (made + 1) (afterRound s) := by
  have worker (w : Fin 1) : (s.loop.worker w).hearSignal false = s.loop.worker w := by
    simp [Worker.hearSignal, stalled.worker, WorkerPc.blocking]
  constructor
  case clock => exact stalled.clock
  case generator => rfl
  case index => simp [afterRound, stalled.index]
  case room => simp [afterRound, stalled.room]
  case worker => simp [afterRound, worker, stalled.worker]
  case held => exact stalled.held
  case oldest =>
    obtain ⟨bound, _⟩ := List.getElem?_eq_some_iff.mp stalled.oldest
    simp only [afterRound, List.getElem?_append_left bound, stalled.oldest]

theorem rounds_stalled (made : Nat) (some_ : 0 < made) (room : made ≤ maxQueueLen) :
    ∃ schedule s, run (step limitedRate) (start 1 0) schedule = some s ∧ Stalled made s := by
  induction made, some_ using Nat.le_induction with
  | base =>
      obtain ⟨s, reached, stalled⟩ := stalled_reached
      exact ⟨oneEvent 4, s, reached, stalled⟩
  | succ made some_ ih =>
      obtain ⟨schedule, s, reached, stalled⟩ := ih (by omega)
      refine ⟨schedule ++ eventRound, afterRound s, ?_, round_stalled made s stalled⟩
      rw [run_append, reached, Option.bind_some, round_runs made s stalled room]

/-- The round that finds the ring full stores its timestamp first. -/
def lateRead (w : Fin 1) : List (Action 1) :=
  [.tick 1, .generator, .generator, .worker w, .worker w]

theorem slot_overwritten (s : State 1) (stalled : Stalled maxQueueLen s) (w : Fin 1) :
    ∃ t, run (step limitedRate) s (lateRead w) = some t ∧ (some 0, 1) ∈ t.reads ∧
      t.stamps[0]? = some 0 := by
  have early (s : EventLoop.State 1) : timeUp limitedRate s = false := rfl
  have slot : s.loop.index = 0 := by rw [stalled.index, Nat.mod_self]
  simp only [lateRead, run, step, EventLoop.step, generatorStep, record, recordGenerator, early,
    slot, stalled.clock, stalled.generator]
  simp [workerStep, recordWorker, stalled.worker, stalled.held, stalled.oldest]
  exact Or.inr (Function.update_self 0 1 s.loop.queueArray).symm

theorem overwritten_before_read : ∃ schedule : List (Action 1),
    ¬ Always (step limitedRate) QueueSound (start 1 0) schedule := by
  obtain ⟨before, s, reached, stalled⟩ := rounds_stalled maxQueueLen (by decide) le_rfl
  obtain ⟨t, moved, read, oldest⟩ := slot_overwritten s stalled (Fin.last 0)
  refine ⟨before ++ lateRead (Fin.last 0), fun all => ?_⟩
  rw [← List.append_nil (before ++ _)] at all
  have sound := always_reached _ t _ [] all (by rw [run_append, reached, Option.bind_some, moved])
  obtain ⟨number, same, known⟩ := sound.reads _ _ read
  obtain rfl := Option.some.inj same
  exact absurd (oldest.symm.trans known) (by decide)

end Overwritten
end PteSysbench.EventQueue
