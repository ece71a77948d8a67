import Mathlib.Data.Int.ModEq
import Mathlib.Data.Fintype.Basic
import Mathlib.Logic.Function.Basic
import Mathlib.Tactic.Ring

/-!
Timers of sb_timer.c and sb_timer.h. Functions that read the clock take the
reading as an argument; counters are 64-bit words.
-/

namespace PteSysbench.SbTimer

/-- NS_PER_SEC. -/
def nsPerSec : Nat := 1000000000

structure Timespec where
  sec : Int
  nsec : Nat
  carried : nsec < nsPerSec
  deriving DecidableEq

namespace Timespec

def zero : Timespec := ⟨0, 0, by decide⟩

/-- A reading as a number of nanoseconds. -/
def ns (time : Timespec) : Int := time.sec * nsPerSec + time.nsec

end Timespec

/-- `SEC2NS`. -/
def sec2ns (sec : Int) : UInt64 := UInt64.ofInt sec * UInt64.ofNat nsPerSec

/-- `TIMESPEC_DIFF`. -/
def timespecDiff (a b : Timespec) : UInt64 :=
  sec2ns (a.sec - b.sec) + UInt64.ofInt ((a.nsec : Int) - b.nsec)

structure Timer where
  timeStart : Timespec
  timeEnd : Timespec
  events : UInt64
  queueTime : UInt64
  minTime : UInt64
  maxTime : UInt64
  sumTime : UInt64
  deriving DecidableEq

/-- A timer in memory that `sb_alloc_per_thread_array` has cleared. -/
def Timer.cleared : Timer :=
  { timeStart := .zero, timeEnd := .zero, events := 0, queueTime := 0, minTime := 0,
    maxTime := 0, sumTime := 0 }

/-- `sb_timer_reset`. -/
def sbTimerReset (t : Timer) : Timer :=
  { t with minTime := 0xffffffffffffffff, maxTime := 0, sumTime := 0, events := 0, queueTime := 0 }

/-- `sb_timer_init`. -/
def sbTimerInit (t : Timer) : Timer :=
  sbTimerReset { t with timeStart := .zero, timeEnd := .zero }

/-- `sb_timer_start`. -/
def sbTimerStart (t : Timer) (now : Timespec) : Timer := { t with timeStart := now }

/-- What `sb_timer_stop` returns. -/
def elapsed (t : Timer) (now : Timespec) : UInt64 := timespecDiff now t.timeStart + t.queueTime

/-- `sb_timer_stop`. -/
def sbTimerStop (t : Timer) (now : Timespec) : Timer :=
  { t with
    timeEnd := now
    events := t.events + 1
    sumTime := t.sumTime + elapsed t now
    minTime := if elapsed t now < t.minTime then elapsed t now else t.minTime
    maxTime := if t.maxTime < elapsed t now then elapsed t now else t.maxTime }

/-- `sb_timer_checkpoint`: the reset timer and the copy. -/
def sbTimerCheckpoint (t : Timer) : Timer × Timer := (sbTimerReset t, t)

/-- `sb_timer_running`, an unsigned comparison with zero. -/
def sbTimerRunning (t : Timer) : Bool := 0 < timespecDiff t.timeStart t.timeEnd

theorem timespec_diff_ns (a b : Timespec) : timespecDiff a b = UInt64.ofInt (a.ns - b.ns) := by
  have split : a.ns - b.ns = (a.sec - b.sec) * nsPerSec + ((a.nsec : Int) - b.nsec) := by
    unfold Timespec.ns
    ring
  rw [split, UInt64.ofInt_add, UInt64.ofInt_mul]
  rfl

theorem word_eq_iff (x y : Int) : UInt64.ofInt x = UInt64.ofInt y ↔ x ≡ y [ZMOD 2 ^ 64] := by
  have word (z : Int) : ((UInt64.ofInt z).toNat : Int) = z % 2 ^ 64 := by
    have low : 0 ≤ z % 2 ^ 64 := Int.emod_nonneg z (by decide)
    have high : z % 2 ^ 64 < 2 ^ 64 := Int.emod_lt_of_pos z (by decide)
    rw [UInt64.ofInt, UInt64.toNat_ofNat', Nat.mod_eq_of_lt (by omega), Int.toNat_of_nonneg low]
  rw [← UInt64.toNat_inj, ← Int.natCast_inj, word, word]
  rfl

/-- The difference is tested for being non-zero, whatever its sign. -/
theorem running_iff (t : Timer) :
    sbTimerRunning t = true ↔ ¬ t.timeStart.ns ≡ t.timeEnd.ns [ZMOD 2 ^ 64] := by
  have zero : timespecDiff t.timeStart t.timeEnd = 0 ↔
      t.timeStart.ns ≡ t.timeEnd.ns [ZMOD 2 ^ 64] := by
    rw [timespec_diff_ns, show (0 : UInt64) = UInt64.ofInt 0 from rfl, word_eq_iff,
      Int.modEq_zero_iff_dvd, ← Int.modEq_iff_dvd, Int.modEq_comm]
  rw [sbTimerRunning, decide_eq_true_eq, UInt64.pos_iff_ne_zero, ne_eq, zero]

end PteSysbench.SbTimer
