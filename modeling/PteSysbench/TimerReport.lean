import PteSysbench.ActionSystem
import PteSysbench.SbTimer
import Mathlib.Data.List.FinRange

/-!
Which timers run. The workers' timers, the copies a checkpoint makes of them, and
the part of `sb_report_cumulative` that stops the running copies on a forced
shutdown. `active` and `copyActive` are history: the timer has been started and
not stopped since.
-/

namespace PteSysbench.TimerReport

open ActionSystem SbTimer

structure State (n : Nat) where
  clock : Option Timespec
  timers : Fin n → Timer
  timersCopy : Fin n → Timer
  active : Fin n → Bool
  copyActive : Fin n → Bool

inductive Action (n : Nat) where
  | init (i : Fin n)
  | start (i : Fin n) (now : Timespec)
  | stop (i : Fin n) (now : Timespec)
  | reset (i : Fin n)
  | checkpoint (i : Fin n)

variable {n : Nat}

/-- The clock reads more than it did the last time. -/
def later : Option Timespec → Timespec → Bool
  | none, _ => true
  | some last, now => last.ns < now.ns

def State.set (s : State n) (i : Fin n) (timer : Timer) (active : Bool) : State n :=
  { s with
    timers := Function.update s.timers i timer
    active := Function.update s.active i active }

def step (s : State n) : Action n → Option (State n)
  | .init i => some (s.set i (sbTimerInit (s.timers i)) false)
  | .start i now =>
      if later s.clock now then
        some { s.set i (sbTimerStart (s.timers i) now) true with clock := some now }
      else none
  | .stop i now =>
      if later s.clock now then
        some { s.set i (sbTimerStop (s.timers i) now) false with clock := some now }
      else none
  | .reset i => some (s.set i (sbTimerReset (s.timers i)) (s.active i))
  | .checkpoint i =>
      let (timer, copy) := sbTimerCheckpoint (s.timers i)
      some { s.set i timer (s.active i) with
        timersCopy := Function.update s.timersCopy i copy
        copyActive := Function.update s.copyActive i (s.active i) }

/-- Before `sb_timer_init`, in cleared memory. -/
def start (n : Nat) : State n :=
  { clock := none, timers := fun _ => .cleared, timersCopy := fun _ => .cleared
    active := fun _ => false, copyActive := fun _ => false }

/-- The loop of `sb_report_cumulative`; `reading i` is what the clock shows in round `i`. -/
def stopRunning (reading : Fin n → Timespec) :
    List (Fin n) → Nat → (Fin n → Timer) → Nat × (Fin n → Timer)
  | [], unfinished, timersCopy => (unfinished, timersCopy)
  | i :: rest, unfinished, timersCopy =>
      if sbTimerRunning (timersCopy i) then
        stopRunning reading rest (unfinished + 1)
          (Function.update timersCopy i (sbTimerStop (timersCopy i) (reading i)))
      else stopRunning reading rest unfinished timersCopy

/-- `sb_report_cumulative`, as far as it touches the timers: the number of
unfinished transactions and the copies it reports. -/
def sbReportCumulative (forcedShutdown : Bool) (timersCopy : Fin n → Timer)
    (reading : Fin n → Timespec) : Nat × (Fin n → Timer) :=
  if forcedShutdown then stopRunning reading (List.finRange n) 0 timersCopy else (0, timersCopy)

/-- A forced shutdown counts, stops and adds an event for exactly the threads whose
event was running at their checkpoint. -/
structure ReportsUnfinished (s : State n) (reading : Fin n → Timespec) : Prop where
  counted : (sbReportCumulative true s.timersCopy reading).1 =
    (List.finRange n).countP fun i => s.copyActive i
  stopped : ∀ i, s.copyActive i = true → (sbReportCumulative true s.timersCopy reading).2 i =
    sbTimerStop (s.timersCopy i) (reading i)
  added : ∀ i, s.copyActive i = true →
    ((sbReportCumulative true s.timersCopy reading).2 i).events = (s.timersCopy i).events + 1
  untouched : ∀ i, s.copyActive i = false →
    (sbReportCumulative true s.timersCopy reading).2 i = s.timersCopy i

def TellsRunning (s : State n) : Prop :=
  (∀ i, sbTimerRunning (s.timers i) = s.active i) ∧ ∀ reading, ReportsUnfinished s reading

/-- A start that does not read the end of the timer's last event, and a stop that
reads its start, both up to a multiple of 2^64 nanoseconds. -/
def Distinguished (s : State n) : Action n → Prop
  | .start i now => ¬ now.ns ≡ (s.timers i).timeEnd.ns [ZMOD 2 ^ 64]
  | .stop i now => now.ns ≡ (s.timers i).timeStart.ns [ZMOD 2 ^ 64]
  | _ => True

/-! The report's loop. -/
section Report

theorem stop_running_exact (reading : Fin n → Timespec) (indices : List (Fin n))
    (unfinished : Nat) (timersCopy : Fin n → Timer) (noDup : indices.Nodup) :
    (stopRunning reading indices unfinished timersCopy).1 =
        unfinished + indices.countP (fun i => sbTimerRunning (timersCopy i)) ∧
      ∀ i, (stopRunning reading indices unfinished timersCopy).2 i =
        if i ∈ indices ∧ sbTimerRunning (timersCopy i) = true then
          sbTimerStop (timersCopy i) (reading i)
        else timersCopy i := by
  induction indices generalizing unfinished timersCopy with
  | nil => simp [stopRunning]
  | cons head rest ih =>
      obtain ⟨fresh, restNoDup⟩ := List.nodup_cons.mp noDup
      by_cases running : sbTimerRunning (timersCopy head) = true
      · -- stopping the head leaves the later copies as they are
        have same (i : Fin n) (member : i ∈ rest) (timer : Timer) :
            Function.update timersCopy head timer i = timersCopy i := by
          apply Function.update_of_ne
          rintro rfl
          exact fresh member
        obtain ⟨count, copies⟩ := ih (unfinished + 1)
          (Function.update timersCopy head (sbTimerStop (timersCopy head) (reading head))) restNoDup
        have counts : rest.countP (fun i => sbTimerRunning (Function.update timersCopy head
              (sbTimerStop (timersCopy head) (reading head)) i)) =
            rest.countP fun i => sbTimerRunning (timersCopy i) := by
          apply List.countP_congr
          intro i member
          rw [same i member]
        simp only [stopRunning, running, ↓reduceIte]
        constructor
        · rw [count, counts, List.countP_cons, if_pos running]
          omega
        · intro i
          rw [copies i]
          by_cases here : i = head
          · subst here
            simp [fresh, running]
          · simp [here]
      · obtain ⟨count, copies⟩ := ih unfinished timersCopy restNoDup
        simp only [stopRunning, running, Bool.false_eq_true, ↓reduceIte]
        constructor
        · rw [count, List.countP_cons, if_neg running, Nat.add_zero]
        · intro i
          rw [copies i]
          by_cases here : i = head
          · subst here
            simp [fresh, running]
          · simp [here]

theorem report_unfinished (s : State n) (reading : Fin n → Timespec)
    (agree : ∀ i, sbTimerRunning (s.timersCopy i) = s.copyActive i) :
    ReportsUnfinished s reading := by
  obtain ⟨count, copies⟩ := stop_running_exact reading (List.finRange n) 0 s.timersCopy
    (List.nodup_finRange n)
  have stopped (i : Fin n) (running : s.copyActive i = true) :
      (sbReportCumulative true s.timersCopy reading).2 i =
        sbTimerStop (s.timersCopy i) (reading i) := by
    rw [sbReportCumulative, if_pos rfl, copies i,
      if_pos ⟨List.mem_finRange i, by rw [agree, running]⟩]
  constructor
  · rw [sbReportCumulative, if_pos rfl, count, Nat.zero_add]
    simp only [agree]
  · exact stopped
  · intro i running
    rw [stopped i running]
    rfl
  · intro i idle
    rw [sbReportCumulative, if_pos rfl, copies i, if_neg]
    rw [agree, idle]
    exact fun both => Bool.false_ne_true both.2

end Report

/-! What each operation does to `sb_timer_running`. -/
section Running
variable {s t : State n}

theorem equal_times_idle (timer : Timer) (same : timer.timeStart = timer.timeEnd) :
    sbTimerRunning timer = false := by
  rw [← Bool.not_eq_true, running_iff, not_not, same]

theorem init_idle (timer : Timer) : sbTimerRunning (sbTimerInit timer) = false :=
  equal_times_idle _ rfl

theorem reset_running (timer : Timer) :
    sbTimerRunning (sbTimerReset timer) = sbTimerRunning timer := rfl

theorem start_running (timer : Timer) (now : Timespec) :
    sbTimerRunning (sbTimerStart timer now) = true ↔
      ¬ now.ns ≡ timer.timeEnd.ns [ZMOD 2 ^ 64] :=
  running_iff (sbTimerStart timer now)

theorem stop_idle (timer : Timer) (now : Timespec) :
    sbTimerRunning (sbTimerStop timer now) = false ↔
      now.ns ≡ timer.timeStart.ns [ZMOD 2 ^ 64] := by
  rw [← Bool.not_eq_true, running_iff, not_not]
  exact Int.modEq_comm

structure Agreed (s : State n) : Prop where
  timers : ∀ i, sbTimerRunning (s.timers i) = s.active i
  copies : ∀ i, sbTimerRunning (s.timersCopy i) = s.copyActive i

theorem start_agreed (n : Nat) : Agreed (start n) :=
  ⟨fun _ => equal_times_idle _ rfl, fun _ => equal_times_idle _ rfl⟩

theorem set_agreed (agreed : Agreed s) (i : Fin n) (timer : Timer) (active : Bool)
    (same : sbTimerRunning timer = active) : Agreed (s.set i timer active) := by
  refine ⟨fun j => ?_, agreed.copies⟩
  by_cases here : j = i
  · subst here
    simpa [State.set] using same
  · simpa [State.set, here] using agreed.timers j

theorem agreed_tells (s : State n) (agreed : Agreed s) : TellsRunning s :=
  ⟨agreed.timers, fun reading => report_unfinished s reading agreed.copies⟩

theorem step_agreed (s : State n) (a : Action n) (t : State n) (agreed : Agreed s)
    (distinguished : Distinguished s a) (taken : step s a = some t) : Agreed t := by
  cases a with
  | init i => exact Option.some.inj taken ▸ set_agreed agreed i _ false (init_idle _)
  | start i now =>
      obtain ⟨_, taken⟩ := Option.ite_none_right_eq_some.mp taken
      obtain rfl := Option.some.inj taken
      have started := set_agreed agreed i (sbTimerStart (s.timers i) now) true
        ((start_running _ _).mpr distinguished)
      exact ⟨started.timers, started.copies⟩
  | stop i now =>
      obtain ⟨_, taken⟩ := Option.ite_none_right_eq_some.mp taken
      obtain rfl := Option.some.inj taken
      have stopped := set_agreed agreed i (sbTimerStop (s.timers i) now) false
        ((stop_idle _ _).mpr distinguished)
      exact ⟨stopped.timers, stopped.copies⟩
  | reset i =>
      exact Option.some.inj taken ▸ set_agreed agreed i _ _
        ((reset_running _).trans (agreed.timers i))
  | checkpoint i =>
      obtain rfl := Option.some.inj taken
      have timers := set_agreed agreed i (sbTimerReset (s.timers i)) (s.active i)
        ((reset_running _).trans (agreed.timers i))
      refine ⟨timers.timers, fun j => ?_⟩
      -- the copy is taken before the timer is reset
      by_cases here : j = i
      · subst here
        simpa [sbTimerCheckpoint] using agreed.timers j
      · simpa [here] using agreed.copies j

theorem step_distinguished (s : State n) (a : Action n) (t : State n)
    (taken : step s a = some t) (tells : TellsRunning t) : Distinguished s a := by
  cases a with
  | init | reset | checkpoint => trivial
  | start i now =>
      obtain ⟨_, taken⟩ := Option.ite_none_right_eq_some.mp taken
      obtain rfl := Option.some.inj taken
      exact (start_running _ _).mp (by simpa [State.set] using tells.1 i)
  | stop i now =>
      obtain ⟨_, taken⟩ := Option.ite_none_right_eq_some.mp taken
      obtain rfl := Option.some.inj taken
      exact (stop_idle _ _).mp (by simpa [State.set] using tells.1 i)

theorem tells_running_iff (n : Nat) (schedule : List (Action n)) :
    Always step TellsRunning (start n) schedule ↔ Guarded step Distinguished (start n) schedule :=
  always_iff_guarded agreed_tells step_agreed
    (fun s a t _ taken tells => step_distinguished s a t taken tells) (start n) schedule
    (start_agreed n)

/-- One event, from the first to the second second of the clock, and a checkpoint. -/
def oneEvent : List (Action 1) :=
  let worker := Fin.last 0
  [.init worker, .start worker ⟨1, 0, Timespec.zero.carried⟩,
    .stop worker ⟨2, 0, Timespec.zero.carried⟩, .checkpoint worker]

theorem stopped_timer_running :
    ∃ t, run step (start 1) oneEvent = some t ∧ t.active 0 = false ∧ t.copyActive 0 = false ∧
      sbTimerRunning (t.timers 0) = true ∧ (t.timersCopy 0).events = 1 ∧
      (sbReportCumulative true t.timersCopy fun _ => ⟨3, 0, by decide⟩).1 = 1 ∧
      ((sbReportCumulative true t.timersCopy fun _ => ⟨3, 0, by decide⟩).2 0).events = 2 :=
  ⟨_, rfl, rfl, rfl, by decide, by decide, by decide, by decide⟩

end Running
end PteSysbench.TimerReport
