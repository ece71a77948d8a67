import PteSysbench.Moments
import Mathlib.Algebra.Order.Ring.Rat
import Mathlib.Data.Rat.Cast.Order

/-!
`calculate_stats` of test9.c, in exact arithmetic: one pass with four accumulators. The
square root is left out; `underRoot` is what it is taken of.
-/

namespace PteSysbench.TimingStats

open Moments

/-- The locals of the loop, and the two outputs it updates. -/
structure Accumulators where
  sum : ℚ
  sumSq : ℚ
  min : ℚ
  max : ℚ

structure Stats where
  min : ℚ
  max : ℚ
  mean : ℚ
  underRoot : ℚ

def accumulate (acc : Accumulators) (time : ℚ) : Accumulators :=
  { sum := acc.sum + time
    sumSq := acc.sumSq + time * time
    min := if time < acc.min then time else acc.min
    max := if acc.max < time then time else acc.max }

/-- Without any time `times[0]` is not there. -/
def calculateStats (times : List ℚ) : Option Stats :=
  match times with
  | [] => none
  | first :: _ =>
      let acc := times.foldl accumulate { sum := 0, sumSq := 0, min := first, max := first }
      let mean := acc.sum / times.length
      some { min := acc.min, max := acc.max, mean
             underRoot := acc.sumSq / times.length - mean * mean }

/-- What the accumulators hold after the times so far. -/
structure Accumulated (first : ℚ) (times : List ℚ) (acc : Accumulators) : Prop where
  sum : acc.sum = times.sum
  sumSq : acc.sumSq = (times.map fun x => x ^ 2).sum
  minMember : acc.min ∈ first :: times
  maxMember : acc.max ∈ first :: times
  bounds : ∀ x ∈ first :: times, acc.min ≤ x ∧ x ≤ acc.max

theorem accumulate_step {first time : ℚ} {times : List ℚ} {acc : Accumulators}
    (before : Accumulated first times acc) :
    Accumulated first (times ++ [time]) (accumulate acc time) := by
  obtain ⟨sum, sumSq, minMember, maxMember, bounds⟩ := before
  have old : ∀ {x}, x ∈ first :: times → x ∈ first :: (times ++ [time]) := fun member =>
    List.mem_append_left [time] member
  have new : time ∈ first :: (times ++ [time]) := by simp
  have low : (accumulate acc time).min ≤ acc.min ∧ (accumulate acc time).min ≤ time := by
    unfold accumulate
    dsimp only
    split <;> constructor <;> linarith
  have high : acc.max ≤ (accumulate acc time).max ∧ time ≤ (accumulate acc time).max := by
    unfold accumulate
    dsimp only
    split <;> constructor <;> linarith
  constructor
  · rw [accumulate, sum, List.sum_append, List.sum_singleton]
  · rw [accumulate, sumSq, List.map_append, List.sum_append, List.map_singleton,
      List.sum_singleton, sq]
  · unfold accumulate
    dsimp only
    split
    · exact new
    · exact old minMember
  · unfold accumulate
    dsimp only
    split
    · exact new
    · exact old maxMember
  · intro x member
    rcases List.mem_append.mp (List.cons_append ▸ member : x ∈ (first :: times) ++ [time])
      with earlier | single
    · obtain ⟨least, greatest⟩ := bounds x earlier
      exact ⟨low.1.trans least, greatest.trans high.1⟩
    · obtain rfl := List.mem_singleton.mp single
      exact ⟨low.2, high.2⟩

theorem accumulate_run {first : ℚ} {acc : Accumulators} {done : List ℚ}
    (before : Accumulated first done acc) (times : List ℚ) :
    Accumulated first (done ++ times) (times.foldl accumulate acc) := by
  induction times generalizing done acc with
  | nil => rwa [List.append_nil]
  | cons time rest ih =>
      rw [List.append_cons]
      exact ih (accumulate_step before)

theorem accumulated (first : ℚ) (times : List ℚ) :
    Accumulated first times
      (times.foldl accumulate { sum := 0, sumSq := 0, min := first, max := first }) := by
  refine @accumulate_run first _ [] ⟨rfl, rfl, ?_, ?_, ?_⟩ times
  · exact List.mem_singleton.mpr rfl
  · exact List.mem_singleton.mpr rfl
  · exact fun x member => List.mem_singleton.mp member ▸ ⟨le_refl _, le_refl _⟩

/-- The statistics of any list with a time in it. -/
structure Correct (times : List ℚ) (stats : Stats) : Prop where
  minMember : stats.min ∈ times
  maxMember : stats.max ∈ times
  bounds : ∀ time ∈ times, stats.min ≤ time ∧ time ≤ stats.max
  average : stats.mean = mean times
  meanBounds : stats.min ≤ stats.mean ∧ stats.mean ≤ stats.max
  deviation : stats.underRoot =
    (times.map fun time => (time - stats.mean) ^ 2).sum / times.length
  nonneg : 0 ≤ stats.underRoot
  zero : stats.underRoot = 0 ↔ ∀ time ∈ times, ∀ other ∈ times, time = other
  quarter : stats.underRoot ≤ (stats.max - stats.min) ^ 2 / 4

theorem calculate_stats_correct (times : List ℚ) (some_ : times ≠ []) :
    ∃ stats, calculateStats times = some stats ∧ Correct times stats := by
  obtain ⟨first, rest, rfl⟩ := List.exists_cons_of_ne_nil some_
  refine ⟨_, rfl, ?_⟩
  obtain ⟨sum, sumSq, minMember, maxMember, bounds⟩ := accumulated first (first :: rest)
  generalize List.foldl accumulate _ _ = acc at sum sumSq minMember maxMember bounds
  -- the first time is in the accumulators before the loop and again in its first turn
  have once : ∀ {x}, x ∈ first :: first :: rest → x ∈ first :: rest := fun member =>
    (List.mem_cons.mp member).elim (fun same => same ▸ List.mem_cons_self) id
  have within : ∀ x ∈ first :: rest, acc.min ≤ x ∧ x ≤ acc.max := fun x member =>
    bounds x (List.mem_cons_of_mem first member)
  have average : acc.sum / (first :: rest).length = mean (first :: rest) := by rw [sum, mean]
  have root : acc.sumSq / (first :: rest).length -
      mean (first :: rest) * mean (first :: rest) = variance (first :: rest) := by
    rw [variance_eq some_, sumSq, sq]
  rw [average, root]
  exact {
    minMember := once minMember
    maxMember := once maxMember
    bounds := within
    average := rfl
    meanBounds := mean_bounds some_ within
    deviation := rfl
    nonneg := variance_nonneg _
    zero := variance_eq_zero_iff some_
    quarter := variance_le some_ within }

theorem calculate_stats_correct_three :
    [3, 1, 2] ≠ ([] : List ℚ) ∧
      ∃ stats, calculateStats [3, 1, 2] = some stats ∧ Correct [3, 1, 2] stats :=
  ⟨List.cons_ne_nil _ _, calculate_stats_correct [3, 1, 2] (List.cons_ne_nil _ _)⟩

end PteSysbench.TimingStats
