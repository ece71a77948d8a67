import PteSysbench.ActionSystem
import PteSysbench.SbTimer
import Mathlib.Data.UInt

/-!
One worker's timer under checkpoints of another thread. `sb_timer_start` and
`sb_timer_stop` hold the timer's lock, a checkpoint holds it from its copy to the
end of its reset, and `sb_more_events` stores the queueing delay without it.
-/

namespace PteSysbench.TimerCheckpoints

open ActionSystem SbTimer

/-- A completed event: the readings of its start and stop, the queueing delay
`sb_more_events` stored for it and what `sb_timer_stop` returned. -/
structure Event where
  started : Timespec
  stopped : Timespec
  delay : UInt64
  elapsed : UInt64

/-- A checkpoint's copy and the events completed since the reset before it. -/
structure Snapshot where
  copy : Timer
  events : List Event

inductive WorkerPc where
  | idle
  | queued
  | running
  deriving DecidableEq

/-- `locked`: a checkpoint is between its copy and its reset. The fields behind
`worker` are history; `delayReset` tells that a reset has come after the store of
the current event's delay. Lists begin with the latest. -/
structure State where
  timer : Timer
  locked : Bool
  snapshots : List Snapshot
  worker : WorkerPc
  started : Timespec
  delay : UInt64
  delayReset : Bool
  unsaved : List Event
  completed : List Event

inductive Action where
  | storeQueueTime (delay : UInt64)
  | eventStart (now : Timespec)
  | eventStop (now : Timespec)
  | checkpointCopy
  | checkpointReset

def start : State :=
  { timer := sbTimerInit .cleared, locked := false, snapshots := [], worker := .idle
    started := .zero, delay := 0, delayReset := false, unsaved := [], completed := [] }

/-- Only limited-rate mode stores a delay before the event starts. -/
def beforeStart (limited : Bool) : WorkerPc := if limited then .queued else .idle

def complete (s : State) (now : Timespec) : Event :=
  { started := s.started, stopped := now, delay := s.delay, elapsed := elapsed s.timer now }

def step (limited : Bool) (s : State) : Action → Option State
  | .storeQueueTime delay =>
      if limited = true ∧ s.worker = .idle then
        some { s with
          timer := { s.timer with queueTime := delay }
          worker := .queued
          delay := delay
          delayReset := false }
      else none
  | .eventStart now =>
      if s.locked = false ∧ s.worker = beforeStart limited then
        some { s with timer := sbTimerStart s.timer now, worker := .running, started := now }
      else none
  | .eventStop now =>
      if s.locked = false ∧ s.worker = .running then
        some { s with
          timer := sbTimerStop s.timer now
          worker := .idle
          unsaved := complete s now :: s.unsaved
          completed := complete s now :: s.completed }
      else none
  | .checkpointCopy =>
      if s.locked = false then
        some { s with
          locked := true
          snapshots := ⟨(sbTimerCheckpoint s.timer).2, s.unsaved⟩ :: s.snapshots }
      else none
  | .checkpointReset =>
      if s.locked = true then
        some { s with
          timer := (sbTimerCheckpoint s.timer).1
          locked := false
          delayReset := true
          unsaved := [] }
      else none

/-- The timer's event count and time sum are those of the events. -/
structure Counts (timer : Timer) (events : List Event) : Prop where
  number : timer.events = UInt64.ofNat events.length
  total : timer.sumTime = (events.map Event.elapsed).sum

/-- The timer itself is the final snapshot, unless a checkpoint is about to reset it. -/
def snapshots (s : State) : List Snapshot :=
  if s.locked then s.snapshots else ⟨s.timer, s.unsaved⟩ :: s.snapshots

/-- Every completed event is in one snapshot, and the snapshots add up to all of them. -/
structure CountedOnce (s : State) : Prop where
  counts : ∀ snapshot ∈ snapshots s, Counts snapshot.copy snapshot.events
  once : ((snapshots s).map Snapshot.events).flatten = s.completed
  events : ((snapshots s).map fun snapshot => snapshot.copy.events).sum =
    UInt64.ofNat s.completed.length
  sumTime : ((snapshots s).map fun snapshot => snapshot.copy.sumTime).sum =
    (s.completed.map Event.elapsed).sum

/-- The elapsed time of an event is its end minus its start plus its own delay. -/
def ElapsedExact (s : State) : Prop :=
  ∀ event ∈ s.completed,
    event.elapsed = UInt64.ofInt (event.stopped.ns - event.started.ns) + event.delay

def Accounted (s : State) : Prop := CountedOnce s ∧ ElapsedExact s

/-- No reset came between the store of an event's delay and its stop, unless the delay is 0. -/
def DelayKept (s : State) : Action → Prop
  | .eventStop _ => s.delayReset = true → s.delay = 0
  | _ => True

/-! Counting over snapshots. -/
section Counting

/-- A counter that agrees on every snapshot agrees on all of them together. -/
theorem counter_sum (ofTimer : Timer → UInt64) (ofEvents : List Event → UInt64)
    (zero : ofEvents [] = 0)
    (append : ∀ first second, ofEvents (first ++ second) = ofEvents first + ofEvents second)
    (saved : List Snapshot)
    (same : ∀ snapshot ∈ saved, ofTimer snapshot.copy = ofEvents snapshot.events) :
    (saved.map fun snapshot => ofTimer snapshot.copy).sum =
      ofEvents (saved.map Snapshot.events).flatten := by
  induction saved with
  | nil => exact zero.symm
  | cons snapshot rest ih =>
      have tail := ih fun other member => same other (List.mem_cons_of_mem _ member)
      rw [List.map_cons, List.sum_cons, tail, same snapshot List.mem_cons_self, List.map_cons,
        List.flatten_cons, append]

theorem counted_once (s : State)
    (counts : ∀ snapshot ∈ snapshots s, Counts snapshot.copy snapshot.events)
    (once : ((snapshots s).map Snapshot.events).flatten = s.completed) : CountedOnce s :=
  have events := counter_sum Timer.events (fun events => UInt64.ofNat events.length) rfl
    (fun _ _ => by rw [List.length_append, UInt64.ofNat_add]) _ fun _ member =>
      (counts _ member).number
  have sumTime := counter_sum Timer.sumTime (fun events => (events.map Event.elapsed).sum) rfl
    (fun _ _ => by rw [List.map_append, List.sum_append]) _ fun _ member => (counts _ member).total
  ⟨counts, once, once ▸ events, once ▸ sumTime⟩

theorem reset_counts (timer : Timer) : Counts (sbTimerReset timer) [] := ⟨rfl, rfl⟩

theorem stop_counts (timer : Timer) (events : List Event) (event : Event) (now : Timespec)
    (counts : Counts timer events) (same : event.elapsed = elapsed timer now) :
    Counts (sbTimerStop timer now) (event :: events) := by
  constructor
  · rw [List.length_cons, UInt64.ofNat_add, ← counts.number]
    rfl
  · rw [List.map_cons, List.sum_cons, ← counts.total, same, UInt64.add_comm]
    rfl

end Counting

/-! What holds in every run, and what the condition adds to it. -/
section Runs
variable {limited : Bool} {s t : State}

structure Tracked (s : State) : Prop where
  counts : ∀ snapshot ∈ snapshots s, Counts snapshot.copy snapshot.events
  once : ((snapshots s).map Snapshot.events).flatten = s.completed
  queueTime : s.timer.queueTime = if s.delayReset then 0 else s.delay
  started : s.worker = .running → s.timer.timeStart = s.started

theorem start_tracked : Tracked start := by
  refine ⟨fun snapshot member => ?_, rfl, rfl, nofun⟩
  obtain rfl := List.mem_singleton.mp member
  exact reset_counts _

/-- A step of the timer's own thread, which completes the events `new` if any. -/
theorem timer_moved (tracked : Tracked s) (new : List Event) (held : s.locked = true → new = [])
    (lock : t.locked = s.locked) (saved : t.snapshots = s.snapshots)
    (unsaved : t.unsaved = new ++ s.unsaved) (completed : t.completed = new ++ s.completed)
    (own : Counts s.timer s.unsaved → Counts t.timer t.unsaved)
    (queueTime : t.timer.queueTime = if t.delayReset then 0 else t.delay)
    (started : t.worker = .running → t.timer.timeStart = t.started) : Tracked t := by
  have counts := tracked.counts
  have once := tracked.once
  -- between copy and reset the timer itself is not counted
  cases locked : s.locked with
  | true =>
      simp only [snapshots, locked, ↓reduceIte] at counts once
      constructor
      · simpa only [snapshots, lock, locked, saved, ↓reduceIte] using counts
      · simpa only [snapshots, lock, locked, saved, completed, held locked, List.nil_append,
          ↓reduceIte] using once
      · exact queueTime
      · exact started
  | false =>
      simp only [snapshots, locked, Bool.false_eq_true, ↓reduceIte] at counts once
      obtain ⟨current, others⟩ := List.forall_mem_cons.mp counts
      rw [List.map_cons, List.flatten_cons] at once
      constructor
      · simp only [snapshots, lock, locked, saved, Bool.false_eq_true, ↓reduceIte]
        exact List.forall_mem_cons.mpr ⟨own current, others⟩
      · simp only [snapshots, lock, locked, saved, Bool.false_eq_true, ↓reduceIte]
        rw [List.map_cons, List.flatten_cons, unsaved, List.append_assoc, once, completed]
      · exact queueTime
      · exact started

theorem step_tracked (s : State) (a : Action) (t : State) (tracked : Tracked s)
    (taken : step limited s a = some t) : Tracked t := by
  cases a with
  | storeQueueTime delay =>
      obtain ⟨_, taken⟩ := Option.ite_none_right_eq_some.mp taken
      obtain rfl := Option.some.inj taken
      exact timer_moved tracked [] (fun _ => rfl) rfl rfl rfl rfl
        (fun own => ⟨own.number, own.total⟩) rfl nofun
  | eventStart now =>
      obtain ⟨_, taken⟩ := Option.ite_none_right_eq_some.mp taken
      obtain rfl := Option.some.inj taken
      exact timer_moved tracked [] (fun _ => rfl) rfl rfl rfl rfl
        (fun own => ⟨own.number, own.total⟩) tracked.queueTime fun _ => rfl
  | eventStop now =>
      obtain ⟨⟨held, _⟩, taken⟩ := Option.ite_none_right_eq_some.mp taken
      obtain rfl := Option.some.inj taken
      exact timer_moved tracked [complete s now] (by simp [held]) rfl rfl rfl rfl
        (fun own => stop_counts _ _ _ now own rfl) tracked.queueTime nofun
  | checkpointCopy =>
      obtain ⟨held, taken⟩ := Option.ite_none_right_eq_some.mp taken
      obtain rfl := Option.some.inj taken
      obtain ⟨counts, once, queueTime, started⟩ := tracked
      simp only [snapshots, held, Bool.false_eq_true, ↓reduceIte] at counts once
      refine ⟨?_, ?_, queueTime, started⟩ <;>
        simpa only [snapshots, ↓reduceIte, sbTimerCheckpoint]
  | checkpointReset =>
      obtain ⟨held, taken⟩ := Option.ite_none_right_eq_some.mp taken
      obtain rfl := Option.some.inj taken
      obtain ⟨counts, once, queueTime, started⟩ := tracked
      simp only [snapshots, held, ↓reduceIte] at counts once
      refine ⟨?_, ?_, rfl, started⟩
      · simp only [snapshots, Bool.false_eq_true, ↓reduceIte]
        exact List.forall_mem_cons.mpr ⟨reset_counts _, counts⟩
      · simpa [snapshots] using once

theorem tracked_counted (s : State) (tracked : Tracked s) : CountedOnce s :=
  counted_once s tracked.counts tracked.once

/-- The counting holds wherever a checkpoint falls. -/
theorem checkpoints_count_once (limited : Bool) (schedule : List Action) :
    Always (step limited) CountedOnce start schedule :=
  always_mono tracked_counted start schedule
    (invariant_keeps step_tracked start schedule start_tracked)

/-- The elapsed time of the event that ends is exact when its delay is still stored. -/
theorem complete_exact (tracked : Tracked s) (now : Timespec) (running : s.worker = .running) :
    (complete s now).elapsed = UInt64.ofInt (now.ns - s.started.ns) + s.delay ↔
      (s.delayReset = true → s.delay = 0) := by
  have split : (complete s now).elapsed =
      UInt64.ofInt (now.ns - s.started.ns) + s.timer.queueTime := by
    rw [complete, elapsed, timespec_diff_ns, tracked.started running]
  rw [split, UInt64.add_right_inj, tracked.queueTime]
  cases s.delayReset with
  | false => simp
  | true => simpa using eq_comm

theorem step_elapsed (exact : ElapsedExact s) (tracked : Tracked s) (a : Action)
    (taken : step limited s a = some t) : ElapsedExact t ↔ DelayKept s a := by
  cases a with
  | eventStop now =>
      obtain ⟨⟨_, running⟩, taken⟩ := Option.ite_none_right_eq_some.mp taken
      obtain rfl := Option.some.inj taken
      rw [ElapsedExact, List.forall_mem_cons]
      exact ⟨fun all => (complete_exact tracked now running).mp all.1,
        fun kept => ⟨(complete_exact tracked now running).mpr kept, exact⟩⟩
  | storeQueueTime | eventStart | checkpointCopy | checkpointReset =>
      obtain ⟨_, taken⟩ := Option.ite_none_right_eq_some.mp taken
      obtain rfl := Option.some.inj taken
      exact ⟨fun _ => trivial, fun _ => exact⟩

theorem tracked_accounted (s : State) (inv : Tracked s ∧ ElapsedExact s) : Accounted s :=
  ⟨tracked_counted s inv.1, inv.2⟩

theorem step_kept (s : State) (a : Action) (t : State) (inv : Tracked s ∧ ElapsedExact s)
    (kept : DelayKept s a) (taken : step limited s a = some t) : Tracked t ∧ ElapsedExact t :=
  ⟨step_tracked s a t inv.1 taken, (step_elapsed inv.2 inv.1 a taken).mpr kept⟩

theorem accounted_iff (limited : Bool) (schedule : List Action) :
    Always (step limited) Accounted start schedule ↔
      Guarded (step limited) DelayKept start schedule := by
  refine always_iff_guarded tracked_accounted step_kept ?_ start schedule ⟨start_tracked, nofun⟩
  intro s a t inv taken accounted
  exact (step_elapsed inv.2 inv.1 a taken).mp accounted.2

/-- A checkpoint between the store of the delay and the start of the event. -/
def checkpointBeforeStart : List Action :=
  [.storeQueueTime 5, .checkpointCopy, .checkpointReset, .eventStart ⟨1, 0, Timespec.zero.carried⟩,
    .eventStop ⟨1, 7, by decide⟩]

theorem delay_lost :
    ∃ t, run (step true) start checkpointBeforeStart = some t ∧
      ∃ event, t.completed = [event] ∧ event.delay = 5 ∧
        event.stopped.ns - event.started.ns = 7 ∧ event.elapsed = 7 :=
  ⟨_, rfl, _, rfl, by decide, by decide, by decide⟩

end Runs
end PteSysbench.TimerCheckpoints
