import PteSysbench.SbTimer
import Mathlib.Algebra.BigOperators.Group.List.Basic
import Mathlib.Data.Fintype.Basic

/-!
The accessors and the merge of sb_timer.c. What a timer says of its events is an element
of a commutative monoid: an event adds one to it, a merge adds two of them, and a timer
that was reset holds the zero.
-/

namespace PteSysbench.TimerMerge

open SbTimer

/-- `sb_timer_avg`. -/
def sbTimerAvg (t : Timer) : UInt64 := if t.events = 0 then 0 else t.sumTime / t.events

/-- `sb_timer_sum`. -/
def sbTimerSum (t : Timer) : UInt64 := t.sumTime

/-- `sb_timer_min`. -/
def sbTimerMin (t : Timer) : UInt64 := if t.events = 0 then 0 else t.minTime

/-- `sb_timer_max`. -/
def sbTimerMax (t : Timer) : UInt64 := t.maxTime

/-- `sb_timer_merge`; what it does not set is zero. -/
def sbTimerMerge (t1 t2 : Timer) : Timer :=
  { Timer.cleared with
    sumTime := t1.sumTime + t2.sumTime
    events := t1.events + t2.events
    maxTime := if t1.maxTime > t2.maxTime then t1.maxTime else t2.maxTime
    minTime := if t1.minTime < t2.minTime then t1.minTime else t2.minTime }

/-! The statistics of some events. -/
section Statistics

@[ext] structure Stats where
  events : UInt64
  sum : UInt64
  least : UInt64
  greatest : UInt64
  deriving DecidableEq

/-- No event: the least element of none is `UINT64_MAX`. -/
def Stats.ofNone : Stats := ⟨0, 0, 0xffffffffffffffff, 0⟩

def Stats.ofOne (duration : UInt64) : Stats := ⟨1, duration, duration, duration⟩

def lesser (a b : UInt64) : UInt64 := if a < b then a else b

def greater (a b : UInt64) : UInt64 := if a > b then a else b

def Stats.join (a b : Stats) : Stats :=
  { events := a.events + b.events
    sum := a.sum + b.sum
    least := lesser a.least b.least
    greatest := greater a.greatest b.greatest }

theorem lesser_to_nat (a b : UInt64) : (lesser a b).toNat = min a.toNat b.toNat := by
  simp only [lesser, UInt64.lt_iff_toNat_lt]
  split <;> omega

theorem greater_to_nat (a b : UInt64) : (greater a b).toNat = max a.toNat b.toNat := by
  simp only [greater, gt_iff_lt, UInt64.lt_iff_toNat_lt]
  split <;> omega

theorem lesser_comm (a b : UInt64) : lesser a b = lesser b a := by
  apply UInt64.toNat_inj.mp
  rw [lesser_to_nat, lesser_to_nat, Nat.min_comm]

theorem greater_comm (a b : UInt64) : greater a b = greater b a := by
  apply UInt64.toNat_inj.mp
  rw [greater_to_nat, greater_to_nat, Nat.max_comm]

theorem join_comm (a b : Stats) : a.join b = b.join a := by
  ext1
  · exact UInt64.add_comm _ _
  · exact UInt64.add_comm _ _
  · exact lesser_comm _ _
  · exact greater_comm _ _

theorem join_assoc (a b c : Stats) : (a.join b).join c = a.join (b.join c) := by
  ext1
  · exact UInt64.add_assoc _ _ _
  · exact UInt64.add_assoc _ _ _
  · apply UInt64.toNat_inj.mp
    simp only [Stats.join, lesser_to_nat, Nat.min_assoc]
  · apply UInt64.toNat_inj.mp
    simp only [Stats.join, greater_to_nat, Nat.max_assoc]

theorem none_join (a : Stats) : Stats.ofNone.join a = a := by
  have largest := a.least.toNat_lt
  ext1
  · exact UInt64.zero_add _
  · exact UInt64.zero_add _
  · apply UInt64.toNat_inj.mp
    rw [Stats.join, lesser_to_nat]
    exact Nat.min_eq_right (Nat.le_of_lt_succ largest)
  · apply UInt64.toNat_inj.mp
    rw [Stats.join, greater_to_nat]
    exact Nat.max_eq_right (Nat.zero_le _)

instance : Add Stats := ⟨Stats.join⟩

instance : Zero Stats := ⟨Stats.ofNone⟩

instance : AddCommMonoid Stats where
  add_assoc := join_assoc
  add_comm := join_comm
  zero_add := none_join
  add_zero a := (join_comm a Stats.ofNone).trans (none_join a)
  nsmul := nsmulRec

/-- What a timer says of its events. -/
def stats (t : Timer) : Stats := ⟨t.events, t.sumTime, t.minTime, t.maxTime⟩

theorem reset_stats (t : Timer) : stats (sbTimerReset t) = 0 := rfl

theorem init_stats (t : Timer) : stats (sbTimerInit t) = 0 := rfl

theorem merge_stats (t1 t2 : Timer) : stats (sbTimerMerge t1 t2) = stats t1 + stats t2 := rfl

theorem stop_stats (t : Timer) (now : Timespec) :
    stats (sbTimerStop t now) = stats t + Stats.ofOne (elapsed t now) := by
  change stats (sbTimerStop t now) = (stats t).join (Stats.ofOne (elapsed t now))
  ext1
  · rfl
  · rfl
  · exact lesser_comm (elapsed t now) t.minTime
  · exact greater_comm (elapsed t now) t.maxTime
end Statistics

/-! The timer of a thread, from a reset to the next checkpoint. -/
section Recording

/-- `queueTime`: `sb_more_events` stores a delay. -/
inductive TimerOp where
  | start (now : Timespec)
  | queueTime (delay : UInt64)
  | stop (now : Timespec)

def TimerOp.apply (t : Timer) : TimerOp → Timer
  | .start now => sbTimerStart t now
  | .queueTime delay => { t with queueTime := delay }
  | .stop now => sbTimerStop t now

def play (t : Timer) (ops : List TimerOp) : Timer := ops.foldl TimerOp.apply t

/-- The durations that the stops return. -/
def returned : Timer → List TimerOp → List UInt64
  | _, [] => []
  | t, .stop now :: rest => elapsed t now :: returned (sbTimerStop t now) rest
  | t, op :: rest => returned (op.apply t) rest

theorem play_stats (t : Timer) (ops : List TimerOp) :
    stats (play t ops) = stats t + ((returned t ops).map Stats.ofOne).sum := by
  induction ops generalizing t with
  | nil => exact (add_zero _).symm
  | cons op rest ih =>
      have later : stats (play t (op :: rest)) =
          stats (op.apply t) + ((returned (op.apply t) rest).map Stats.ofOne).sum := ih (op.apply t)
      rw [later]
      cases op with
      | start now => rfl
      | queueTime delay => rfl
      | stop now =>
          simp only [TimerOp.apply, returned, List.map_cons, List.sum_cons, stop_stats, add_assoc]

/-- The reading `duration` nanoseconds after zero. -/
def reading (duration : UInt64) : Timespec :=
  ⟨duration.toNat / nsPerSec, duration.toNat % nsPerSec, Nat.mod_lt _ (Nat.succ_pos _)⟩

theorem reading_ns (duration : UInt64) : (reading duration).ns = duration.toNat := by
  simp only [reading, Timespec.ns]
  exact_mod_cast Nat.div_add_mod' duration.toNat nsPerSec

theorem of_int_to_nat (duration : UInt64) : UInt64.ofInt duration.toNat = duration := by
  apply UInt64.toNat_inj.mp
  have bound := duration.toNat_lt
  rw [UInt64.ofInt, UInt64.toNat_ofNat']
  omega

/-- Events that take given durations, without a queueing delay. -/
def eventsOf (durations : List UInt64) : List TimerOp :=
  durations.flatMap fun duration => [.start .zero, .queueTime 0, .stop (reading duration)]

theorem event_elapsed (t : Timer) (duration : UInt64) :
    elapsed { sbTimerStart t .zero with queueTime := 0 } (reading duration) = duration := by
  have zero : Timespec.zero.ns = 0 := rfl
  simp only [elapsed, sbTimerStart, timespec_diff_ns, reading_ns, zero]
  rw [Int.sub_zero, of_int_to_nat, UInt64.add_zero]

/-- Every list of durations can be recorded. -/
theorem events_of_returned (t : Timer) (durations : List UInt64) :
    returned t (eventsOf durations) = durations := by
  induction durations generalizing t with
  | nil => rfl
  | cons duration rest ih =>
      have first : returned t (eventsOf (duration :: rest)) =
          elapsed { sbTimerStart t .zero with queueTime := 0 } (reading duration) ::
            returned (sbTimerStop { sbTimerStart t .zero with queueTime := 0 } (reading duration))
              (eventsOf rest) := rfl
      rw [first, event_elapsed, ih]
end Recording

/-! The cumulative report. -/
section Report
variable {n : Nat}

/-- `timers_copy[i]` at the next checkpoint, `timers[i]` having been reset before the `ops`. -/
def timersCopy (timers : Fin n → Timer) (ops : Fin n → List TimerOp) (i : Fin n) : Timer :=
  (sbTimerCheckpoint (play (sbTimerReset (timers i)) (ops i))).2

/-- `t = sb_timer_merge(&t, &timers_copy[i])` for the threads of `order`. -/
def mergeAll (t : Timer) (copies : Fin n → Timer) (order : List (Fin n)) : Timer :=
  order.foldl (fun t i => sbTimerMerge t (copies i)) t

/-- The durations of a thread since the reset. -/
def durations (timers : Fin n → Timer) (ops : Fin n → List TimerOp) (i : Fin n) : List UInt64 :=
  returned (sbTimerReset (timers i)) (ops i)

/-- What the report reads of a timer. -/
structure SameReport (t1 t2 : Timer) : Prop where
  events : t1.events = t2.events
  sum : sbTimerSum t1 = sbTimerSum t2
  least : sbTimerMin t1 = sbTimerMin t2
  greatest : sbTimerMax t1 = sbTimerMax t2
  average : sbTimerAvg t1 = sbTimerAvg t2

theorem same_report {t1 t2 : Timer} (same : stats t1 = stats t2) : SameReport t1 t2 := by
  have events : t1.events = t2.events := congrArg Stats.events same
  have sum : t1.sumTime = t2.sumTime := congrArg Stats.sum same
  have least : t1.minTime = t2.minTime := congrArg Stats.least same
  have greatest : t1.maxTime = t2.maxTime := congrArg Stats.greatest same
  refine ⟨events, sum, ?_, greatest, ?_⟩
  · rw [sbTimerMin, sbTimerMin, events, least]
  · rw [sbTimerAvg, sbTimerAvg, events, sum]

theorem merge_all_stats (t : Timer) (copies : Fin n → Timer) (order : List (Fin n)) :
    stats (mergeAll t copies order) = stats t + (order.map fun i => stats (copies i)).sum := by
  induction order generalizing t with
  | nil => exact (add_zero _).symm
  | cons i rest ih =>
      have later : stats (mergeAll t copies (i :: rest)) =
          stats (sbTimerMerge t (copies i)) + (rest.map fun i => stats (copies i)).sum := ih _
      rw [later, merge_stats, List.map_cons, List.sum_cons, add_assoc]

theorem copy_stats (timers : Fin n → Timer) (ops : Fin n → List TimerOp) (i : Fin n) :
    stats (timersCopy timers ops i) = ((durations timers ops i).map Stats.ofOne).sum := by
  change stats (play (sbTimerReset (timers i)) (ops i)) = _
  rw [play_stats, reset_stats, zero_add, durations]

theorem sum_of_durations (parts : Fin n → List UInt64) (order : List (Fin n)) :
    (order.map fun i => ((parts i).map Stats.ofOne).sum).sum =
      ((order.flatMap parts).map Stats.ofOne).sum := by
  induction order with
  | nil => rfl
  | cons i rest ih =>
      rw [List.map_cons, List.sum_cons, ih, List.flatMap_cons, List.map_append, List.sum_append]

/-- Whatever the threads' timers held before the reset, whichever threads are in an event
then or at the checkpoint, and in whichever order the copies are merged: the report is that
of one timer with the same durations. -/
theorem merged_timers_report (timers : Fin n → Timer) (ops : Fin n → List TimerOp)
    (fresh one : Timer) (all : List TimerOp) (order : List (Fin n))
    (everyone : order.Perm (List.finRange n))
    (same : (returned (sbTimerInit one) all).Perm
      ((List.finRange n).flatMap (durations timers ops))) :
    SameReport (mergeAll (sbTimerInit fresh) (timersCopy timers ops) order)
      (play (sbTimerInit one) all) := by
  apply same_report
  calc stats (mergeAll (sbTimerInit fresh) (timersCopy timers ops) order)
      = (order.map fun i => stats (timersCopy timers ops i)).sum := by
        rw [merge_all_stats, init_stats, zero_add]
    _ = ((List.finRange n).map fun i => stats (timersCopy timers ops i)).sum :=
        (everyone.map _).sum_eq
    _ = (((List.finRange n).flatMap (durations timers ops)).map Stats.ofOne).sum := by
        simp only [copy_stats, sum_of_durations]
    _ = ((returned (sbTimerInit one) all).map Stats.ofOne).sum := ((same.map _).sum_eq).symm
    _ = stats (play (sbTimerInit one) all) := by rw [play_stats, init_stats, zero_add]

/-- Three threads, the second one without an event. -/
def threeThreads : Fin 3 → List UInt64
  | 0 => [5, 3]
  | 1 => []
  | 2 => [7]

theorem durations_of_events (timers : Fin n → Timer) (assigned : Fin n → List UInt64) :
    durations timers (fun i => eventsOf (assigned i)) = assigned :=
  funext fun i => events_of_returned _ (assigned i)

theorem three_timers_report :
    ([2, 0, 1] : List (Fin 3)).Perm (List.finRange 3) ∧
      (returned (sbTimerInit .cleared) (eventsOf [7, 5, 3])).Perm ((List.finRange 3).flatMap
        (durations (fun _ => Timer.cleared) fun i => eventsOf (threeThreads i))) ∧
      SameReport (mergeAll (sbTimerInit .cleared)
          (timersCopy (fun _ => Timer.cleared) fun i => eventsOf (threeThreads i)) [2, 0, 1])
        (play (sbTimerInit .cleared) (eventsOf [7, 5, 3])) := by
  have everyone : ([2, 0, 1] : List (Fin 3)).Perm (List.finRange 3) := by decide
  have same : (returned (sbTimerInit .cleared) (eventsOf [7, 5, 3])).Perm
      ((List.finRange 3).flatMap
        (durations (fun _ => Timer.cleared) fun i => eventsOf (threeThreads i))) := by
    rw [events_of_returned, durations_of_events]
    decide
  exact ⟨everyone, same, merged_timers_report _ _ .cleared .cleared _ _ everyone same⟩
end Report
end PteSysbench.TimerMerge
