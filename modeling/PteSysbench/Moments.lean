import Mathlib.Algebra.BigOperators.Group.List.Basic
import Mathlib.Algebra.Order.BigOperators.Group.List
import Mathlib.Algebra.Order.Field.Basic
import Mathlib.Tactic.FieldSimp
import Mathlib.Tactic.Linarith
import Mathlib.Tactic.Positivity
import Mathlib.Tactic.Ring

/-!
Mean and variance of a list over any ordered field: the formula with the sum of squares, and
how far the variance is bounded by the range of the list.
-/

namespace PteSysbench.Moments

variable {K : Type*} [Field K]

def mean (xs : List K) : K := xs.sum / xs.length

/-- The average squared deviation from the mean. -/
def variance (xs : List K) : K := (xs.map fun x => (x - mean xs) ^ 2).sum / xs.length

/-- A quadratic polynomial summed over a list. -/
theorem sum_quadratic (a b c : K) (xs : List K) :
    (xs.map fun x => a * x ^ 2 + b * x + c).sum =
      a * (xs.map fun x => x ^ 2).sum + b * xs.sum + xs.length * c := by
  induction xs with
  | nil => simp
  | cons x xs ih =>
      rw [List.map_cons, List.sum_cons, ih, List.map_cons, List.sum_cons, List.sum_cons,
        List.length_cons, Nat.cast_succ]
      ring

variable [LinearOrder K] [IsStrictOrderedRing K] {xs : List K}

theorem length_pos (some_ : xs ≠ []) : (0 : K) < xs.length :=
  Nat.cast_pos.mpr (List.length_pos_iff.mpr some_)

theorem length_mul_mean (some_ : xs ≠ []) : (xs.length : K) * mean xs = xs.sum :=
  mul_div_cancel₀ _ (length_pos some_).ne'

/-- One pass is enough for the variance. -/
theorem variance_eq (some_ : xs ≠ []) :
    variance xs = (xs.map fun x => x ^ 2).sum / xs.length - mean xs ^ 2 := by
  have expand : ∀ x : K, (x - mean xs) ^ 2 = 1 * x ^ 2 + -(2 * mean xs) * x + mean xs ^ 2 :=
    fun x => by ring
  have positive := (length_pos some_).ne'
  rw [variance, List.map_congr_left fun x _ => expand x, sum_quadratic, ← length_mul_mean some_]
  field_simp
  ring

theorem deviations_nonneg (xs : List K) (m : K) :
    ∀ y ∈ xs.map fun x => (x - m) ^ 2, 0 ≤ y := by
  intro y member
  obtain ⟨x, -, rfl⟩ := List.mem_map.mp member
  exact sq_nonneg _

theorem variance_nonneg (xs : List K) : 0 ≤ variance xs :=
  div_nonneg (List.sum_nonneg (deviations_nonneg xs _)) (Nat.cast_nonneg _)

theorem mean_bounds {low high : K} (some_ : xs ≠ []) (bounds : ∀ x ∈ xs, low ≤ x ∧ x ≤ high) :
    low ≤ mean xs ∧ mean xs ≤ high := by
  have positive := length_pos some_
  have below := List.card_nsmul_le_sum xs low fun x member => (bounds x member).1
  have above := List.sum_le_card_nsmul xs high fun x member => (bounds x member).2
  rw [nsmul_eq_mul] at below above
  rw [mean, le_div_iff₀ positive, div_le_iff₀ positive, mul_comm low, mul_comm high]
  exact ⟨below, above⟩

/-- Only a list of equal numbers has no variance. -/
theorem variance_eq_zero_iff (some_ : xs ≠ []) :
    variance xs = 0 ↔ ∀ x ∈ xs, ∀ y ∈ xs, x = y := by
  have positive := (length_pos some_).ne'
  constructor
  · intro none_
    rw [variance, div_eq_zero_iff, or_iff_left positive] at none_
    have atMean : ∀ x ∈ xs, x = mean xs := by
      -- squares that add up to 0 are all 0
      intro x member
      have zero := List.all_zero_of_le_zero_le_of_sum_eq_zero (deviations_nonneg xs _) none_
        (List.mem_map_of_mem member)
      exact sub_eq_zero.mp ((pow_eq_zero_iff two_ne_zero).mp zero)
    intro x member y other
    rw [atMean x member, atMean y other]
  · intro same
    -- the first number bounds the mean on both sides
    obtain ⟨first, rest, rfl⟩ := List.exists_cons_of_ne_nil some_
    have bounds := mean_bounds some_ fun x member =>
      ⟨(same first List.mem_cons_self x member).le, (same x member first List.mem_cons_self).le⟩
    have atFirst := le_antisymm bounds.1 bounds.2
    rw [variance, div_eq_zero_iff]
    refine .inl (List.sum_eq_zero fun y member => ?_)
    obtain ⟨x, there, rfl⟩ := List.mem_map.mp member
    have here : x = mean (first :: rest) := (same x there first List.mem_cons_self).trans atFirst
    rw [sub_eq_zero.mpr here, zero_pow two_ne_zero]

/-- Each number is between the bounds, so the products of the two distances add up to no
less than 0. -/
theorem variance_le {low high : K} (some_ : xs ≠ []) (bounds : ∀ x ∈ xs, low ≤ x ∧ x ≤ high) :
    variance xs ≤ (high - low) ^ 2 / 4 := by
  have positive := length_pos some_
  have expand : ∀ x : K, (high - x) * (x - low) = -1 * x ^ 2 + (high + low) * x + -(high * low) :=
    fun x => by ring
  have products : 0 ≤ (xs.map fun x => (high - x) * (x - low)).sum := by
    refine List.sum_nonneg fun y member => ?_
    obtain ⟨x, there, rfl⟩ := List.mem_map.mp member
    exact mul_nonneg (sub_nonneg.mpr (bounds x there).2) (sub_nonneg.mpr (bounds x there).1)
  rw [List.map_congr_left fun x _ => expand x, sum_quadratic, ← length_mul_mean some_] at products
  have between : variance xs ≤ (high - mean xs) * (mean xs - low) := by
    rw [variance_eq some_, sub_le_iff_le_add, div_le_iff₀ positive]
    linarith
  -- the product of the distances to the mean is greatest in the middle
  have square := sq_nonneg (high + low - 2 * mean xs)
  linarith

end PteSysbench.Moments
