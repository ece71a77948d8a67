import Mathlib.Algebra.Group.Nat.Defs
import Mathlib.Data.Nat.Log

/-!
Rounding to the 53 significant bits of a double. A number that is not negative and far
from the ends of the exponent range is a numerator over a fixed power of two, and the
denominator plays no part.
-/

namespace PteSysbench.DoubleRounding

/-- The multiple of `step` nearest to `n`; of two as near the one with the even factor. -/
def nearest (step n : Nat) : Nat :=
  if 2 * (n % step) < step then n / step * step
  else if step < 2 * (n % step) then (n / step + 1) * step
  else (n / step + n / step % 2) * step

/-- The distance of the doubles around `n`. -/
def spacing (n : Nat) : Nat := 2 ^ (Nat.log2 n - 52)

def roundDouble (n : Nat) : Nat := nearest (spacing n) n

/-- `n` is a double itself. -/
def Exact (n : Nat) : Prop := spacing n ∣ n

instance decidableExact (n : Nat) : Decidable (Exact n) :=
  inferInstanceAs (Decidable (spacing n ∣ n))

/-! The nearest multiple. -/
section Nearest
variable (step : Nat)

theorem nearest_low (n : Nat) : n / step * step ≤ nearest step n := by
  unfold nearest
  split
  · exact Nat.le_refl _
  · split <;> exact Nat.mul_le_mul_right _ (by omega)

theorem nearest_high (n : Nat) : nearest step n ≤ (n / step + 1) * step := by
  unfold nearest
  split
  · exact Nat.mul_le_mul_right _ (by omega)
  · split <;> exact Nat.mul_le_mul_right _ (by omega)

theorem nearest_multiple (n : Nat) (divides : step ∣ n) : nearest step n = n := by
  obtain ⟨factor, rfl⟩ := divides
  rcases Nat.eq_zero_or_pos step with rfl | positive
  · simp [nearest]
  · rw [nearest, Nat.mul_mod_right, if_pos (by omega), Nat.mul_div_cancel_left _ positive,
      Nat.mul_comm]

theorem nearest_mono {n m : Nat} (below : n ≤ m) : nearest step n ≤ nearest step m := by
  rcases Nat.eq_zero_or_pos step with rfl | positive
  · simp [nearest]
  rcases Nat.lt_or_eq_of_le (Nat.div_le_div_right (c := step) below) with apart | same
  · calc nearest step n
        _ ≤ (n / step + 1) * step := nearest_high step n
        _ ≤ m / step * step := Nat.mul_le_mul_right _ apart
        _ ≤ nearest step m := nearest_low step m
  · -- between the same two multiples the remainders decide
    have rest : n % step ≤ m % step := by
      have first := Nat.div_add_mod n step
      have second := Nat.div_add_mod m step
      rw [same] at first
      omega
    unfold nearest
    rw [same]
    by_cases down : 2 * (m % step) < step
    · rw [if_pos down, if_pos (by omega)]
    · rw [if_neg down]
      by_cases up : step < 2 * (m % step)
      · rw [if_pos up]
        split
        · exact Nat.mul_le_mul_right _ (by omega)
        · split <;> exact Nat.mul_le_mul_right _ (by omega)
      · rw [if_neg up]
        split
        · exact Nat.mul_le_mul_right _ (by omega)
        · rw [if_neg (by omega)]

end Nearest

/-! The rounding. -/
section Rounding

theorem exact_of_multiple {n : Nat} (bits : Nat) (small : n < 2 ^ (bits + 53))
    (multiple : 2 ^ bits ∣ n) : Exact n := by
  refine Nat.dvd_trans (Nat.pow_dvd_pow 2 ?_) multiple
  rcases Nat.eq_zero_or_pos n with rfl | positive
  · simp
  · have size := (Nat.log2_lt (Nat.pos_iff_ne_zero.mp positive)).mpr small
    omega

theorem round_double_exact {n : Nat} (exact_ : Exact n) : roundDouble n = n :=
  nearest_multiple _ n exact_

@[simp] theorem round_double_zero : roundDouble 0 = 0 := round_double_exact (Nat.dvd_zero _)

/-- The next power of two is not passed. -/
theorem round_double_le_next (n : Nat) : roundDouble n ≤ 2 ^ (Nat.log2 n + 1) := by
  have divides : spacing n ∣ 2 ^ (Nat.log2 n + 1) := Nat.pow_dvd_pow 2 (by omega)
  have below : n ≤ 2 ^ (Nat.log2 n + 1) := Nat.le_of_lt Nat.lt_log2_self
  exact (nearest_mono _ below).trans_eq (nearest_multiple _ _ divides)

theorem power_le_round_double {n : Nat} (positive : 0 < n) :
    2 ^ Nat.log2 n ≤ roundDouble n := by
  have divides : spacing n ∣ 2 ^ Nat.log2 n := Nat.pow_dvd_pow 2 (Nat.sub_le _ _)
  rw [← nearest_multiple _ _ divides]
  exact nearest_mono _ (Nat.log2_self_le (Nat.pos_iff_ne_zero.mp positive))

theorem round_double_mono {n m : Nat} (below : n ≤ m) : roundDouble n ≤ roundDouble m := by
  rcases Nat.eq_zero_or_pos n with rfl | positive
  · exact Nat.zero_le _
  have positive' : 0 < m := Nat.lt_of_lt_of_le positive below
  have order : Nat.log2 n ≤ Nat.log2 m := by
    rw [Nat.le_log2 (Nat.pos_iff_ne_zero.mp positive')]
    exact (Nat.log2_self_le (Nat.pos_iff_ne_zero.mp positive)).trans below
  rcases Nat.lt_or_eq_of_le order with apart | same
  · calc roundDouble n
        _ ≤ 2 ^ (Nat.log2 n + 1) := round_double_le_next n
        _ ≤ 2 ^ Nat.log2 m := Nat.pow_le_pow_right (by decide) apart
        _ ≤ roundDouble m := power_le_round_double positive'
  · have spaced : spacing n = spacing m := by rw [spacing, same, spacing]
    rw [roundDouble, roundDouble, spaced]
    exact nearest_mono _ below

/-- A bound that is a double is kept by the rounding. -/
theorem round_double_le {n bound : Nat} (exact_ : Exact bound) (below : n ≤ bound) :
    roundDouble n ≤ bound :=
  (round_double_mono below).trans_eq (round_double_exact exact_)

theorem le_round_double {n bound : Nat} (exact_ : Exact bound) (above : bound ≤ n) :
    bound ≤ roundDouble n :=
  (round_double_exact exact_).symm.trans_le (round_double_mono above)

end Rounding

end PteSysbench.DoubleRounding
