import Mathlib.Algebra.Group.Nat.Defs
import Mathlib.Tactic.Ring

/-!
The loop of `report_thread_proc`: it sleeps, reports, reads the clock, and looks for the
next target on a fixed grid of intervals. Times are `unsigned long long` nanoseconds.
-/

namespace PteSysbench.ReportSchedule

/-- `SEC2NS` of an `unsigned int`. -/
def sec2ns (sec : Nat) : Nat := sec * 1000000000 % 2 ^ 64

/-- `pause_ns` and `prev_ns` at the top of the loop. -/
structure State where
  pause : Nat
  prev : Nat
  deriving DecidableEq, Repr

def reportStart (interval timer : Nat) : State :=
  { pause := interval, prev := (timer + interval) % 2 ^ 64 }

/-- The inner loop, for at most that many turns. -/
def catchUp (interval curr : Nat) : Nat → Nat → Option Nat
  | 0, _ => none
  | fuel + 1, prev =>
      let next := (prev + interval) % 2 ^ 64
      if next ≤ curr then catchUp interval curr fuel next else some next

/-- The outer loop from one sleep to the next; `curr` is what the clock says after the
report. The inner loop has a turn for every nanosecond on the clock, and one more. -/
def turn (interval : Nat) (state : State) (curr : Nat) : Option State :=
  (catchUp interval curr (curr + 1) state.prev).map fun next =>
    { pause := (next + 2 ^ 64 - curr) % 2 ^ 64, prev := next }

/-- No sleep ended early, and the sums up to the first target ahead fit in 64 bits. -/
def Awake (interval : Nat) : State → List Nat → Prop
  | _, [] => True
  | state, curr :: rest =>
      state.prev ≤ curr ∧
        (∃ n, curr < state.prev + n * interval ∧ state.prev + n * interval < 2 ^ 64) ∧
        ∀ later, turn interval state curr = some later → Awake interval later rest

/-- What one turn does on the grid that begins with `start`. -/
structure OnSchedule (start interval : Nat) (before : State) (curr : Nat) (after : State) :
    Prop where
  multiple : ∃ k, after.prev = start + k * interval
  later : before.prev < after.prev
  pausePositive : 0 < after.pause
  pauseShort : after.pause ≤ interval
  pauseReaches : curr + after.pause = after.prev
  noneSkipped : ∀ j, before.prev < start + j * interval → start + j * interval < after.prev →
    start + j * interval ≤ curr

/-- Every turn ends, and is right. -/
def Keeps (start interval : Nat) : State → List Nat → Prop
  | _, [] => True
  | state, curr :: rest =>
      ∃ later, turn interval state curr = some later ∧
        OnSchedule start interval state curr later ∧ Keeps start interval later rest

section Turns
variable {start interval curr : Nat}

/-- The loop stops at the first target ahead of the clock. -/
theorem catch_up_ends {fuel prev n : Nat} (behind : prev ≤ curr)
    (enough : curr < prev + fuel * interval) (ahead : curr < prev + n * interval)
    (fits : prev + n * interval < 2 ^ 64) :
    ∃ m, catchUp interval curr fuel prev = some (prev + (m + 1) * interval) ∧
      prev + m * interval ≤ curr ∧ curr < prev + (m + 1) * interval := by
  induction fuel generalizing prev n with
  | zero => omega
  | succ fuel ih =>
      cases n with
      | zero => omega
      | succ n =>
          have more : (n + 1) * interval = n * interval + interval := Nat.succ_mul n interval
          have turns : (fuel + 1) * interval = fuel * interval + interval :=
            Nat.succ_mul fuel interval
          have exact_ : (prev + interval) % 2 ^ 64 = prev + interval :=
            Nat.mod_eq_of_lt (by omega)
          rw [catchUp, exact_]
          -- the grid goes on from the target that was missed
          by_cases missed : prev + interval ≤ curr
          · obtain ⟨m, ended, passed, next⟩ :=
              ih missed (by omega) (n := n) (by omega) (by omega)
            refine ⟨m + 1, ?_, ?_, ?_⟩
            · rw [if_pos missed, ended]
              congr 1
              ring
            · calc prev + (m + 1) * interval = prev + interval + m * interval := by ring
                _ ≤ curr := passed
            · calc curr < prev + interval + (m + 1) * interval := next
                _ = prev + (m + 1 + 1) * interval := by ring
          · refine ⟨0, ?_, by omega, by omega⟩
            rw [if_neg missed, Nat.zero_add, Nat.one_mul]

/-- One turn, from a target on the grid to the next one that is not missed. -/
theorem turn_on_schedule {before : State} {k n : Nat} (positive : 0 < interval)
    (grid : before.prev = start + k * interval) (behind : before.prev ≤ curr)
    (ahead : curr < before.prev + n * interval) (fits : before.prev + n * interval < 2 ^ 64) :
    ∃ after j, turn interval before curr = some after ∧ after.prev = start + j * interval ∧
      OnSchedule start interval before curr after := by
  have enough : curr < before.prev + (curr + 1) * interval := by
    have turns := Nat.le_mul_of_pos_right (curr + 1) positive
    omega
  obtain ⟨m, ended, passed, next⟩ := catch_up_ends behind enough ahead fits
  have more : (m + 1) * interval = m * interval + interval := Nat.succ_mul m interval
  have target : before.prev + (m + 1) * interval = start + (k + (m + 1)) * interval := by
    rw [grid]
    ring
  have fewer : m < n := Nat.lt_of_mul_lt_mul_right (a := interval) (by omega)
  have short : (m + 1) * interval ≤ n * interval := Nat.mul_le_mul_right interval fewer
  have below : before.prev + (m + 1) * interval < 2 ^ 64 := by omega
  have pause : (before.prev + (m + 1) * interval + 2 ^ 64 - curr) % 2 ^ 64 =
      before.prev + (m + 1) * interval - curr := by omega
  refine ⟨_, k + (m + 1), by rw [turn, ended]; rfl, target, ?_⟩
  constructor
  · exact ⟨_, target⟩
  · show before.prev < before.prev + (m + 1) * interval
    omega
  · show 0 < (before.prev + (m + 1) * interval + 2 ^ 64 - curr) % 2 ^ 64
    omega
  · show (before.prev + (m + 1) * interval + 2 ^ 64 - curr) % 2 ^ 64 ≤ interval
    omega
  · show curr + (before.prev + (m + 1) * interval + 2 ^ 64 - curr) % 2 ^ 64 =
      before.prev + (m + 1) * interval
    omega
  · -- a target in between is at most `m` intervals on, and the clock has passed that one
    intro j after early
    change start + j * interval < before.prev + (m + 1) * interval at early
    rw [target] at early
    have first : j < k + (m + 1) :=
      Nat.lt_of_mul_lt_mul_right (Nat.lt_of_add_lt_add_left early)
    have bound : j * interval ≤ (k + m) * interval := Nat.mul_le_mul_right _ (by omega)
    have sum : (k + m) * interval = k * interval + m * interval := Nat.add_mul k m interval
    omega

theorem keeps_of_awake {state : State} {k : Nat} {readings : List Nat} (positive : 0 < interval)
    (grid : state.prev = start + k * interval) (awake : Awake interval state readings) :
    Keeps start interval state readings := by
  induction readings generalizing state k with
  | nil => trivial
  | cons curr rest ih =>
      obtain ⟨behind, ⟨n, ahead, fits⟩, later⟩ := awake
      obtain ⟨after, j, turned, grid, right⟩ := turn_on_schedule positive grid behind ahead fits
      exact ⟨after, turned, right, ih grid (later after turned)⟩
end Turns

/-- Reports do not drift: whatever the clock says after each of them, the next target is the
first one ahead of it on the grid, and the pause leads there. -/
theorem reports_keep_schedule (sec timer : Nat) (readings : List Nat) (some_ : 1 ≤ sec)
    (unsigned : sec < 2 ^ 32) (fits : timer + sec2ns sec < 2 ^ 64)
    (awake : Awake (sec2ns sec) (reportStart (sec2ns sec) timer) readings) :
    sec2ns sec = sec * 1000000000 ∧
      reportStart (sec2ns sec) timer = { pause := sec2ns sec, prev := timer + sec2ns sec } ∧
      Keeps timer (sec2ns sec) (reportStart (sec2ns sec) timer) readings := by
  have exact_ : sec2ns sec = sec * 1000000000 := Nat.mod_eq_of_lt (by omega)
  have first : reportStart (sec2ns sec) timer =
      { pause := sec2ns sec, prev := timer + sec2ns sec } := by
    rw [reportStart, Nat.mod_eq_of_lt fits]
  refine ⟨exact_, first, keeps_of_awake (k := 1) (by omega) ?_ awake⟩
  rw [first, Nat.one_mul]

/-- A report in time, and one that takes more than an interval. -/
theorem reports_keep_schedule_late :
    sec2ns 1 = 1000000000 ∧ Keeps 7 (sec2ns 1) (reportStart (sec2ns 1) 7)
      [1000000009, 3000000008] := by
  have one : sec2ns 1 = 1000000000 := rfl
  have start : reportStart (sec2ns 1) 7 = { pause := 1000000000, prev := 1000000007 } := rfl
  have awake : Awake (sec2ns 1) (reportStart (sec2ns 1) 7) [1000000009, 3000000008] := by
    rw [start, one]
    refine ⟨by decide, ⟨1, by decide, by decide⟩, fun later turned => ?_⟩
    have next : turn 1000000000 { pause := 1000000000, prev := 1000000007 } 1000000009 =
        some { pause := 999999998, prev := 2000000007 } := rfl
    obtain rfl := Option.some.inj (next.symm.trans turned)
    exact ⟨by decide, ⟨2, by decide, by decide⟩, fun _ _ => trivial⟩
  have kept := reports_keep_schedule 1 7 _ (Nat.le_refl 1) (by decide) (by decide) awake
  exact ⟨kept.1, kept.2.2⟩
end PteSysbench.ReportSchedule
