import PteSysbench.DoubleRounding
import Mathlib.Tactic.Ring

/-!
Generators of sb_rand.c. A draw of `sb_rand_uniform_double` is the 52-bit mantissa `k` of a
double in [1, 2), that is `k / 2^52`, so a generator is a function of the raw 64-bit number
behind it and everything stays in natural numbers. `sbRandUniform` reads the floating
arithmetic as exact, `sbRandUniformRounded` rounds the product and the sum as doubles.
-/

namespace PteSysbench.SbRand

open DoubleRounding

/-- The numerator of `sb_rand_uniform_double`: `x >> 12`, over `2^52`. -/
def sbRandUniformDouble (x : UInt64) : Nat := x.toNat / 2 ^ 12

/-- `sb_rand_uniform` in exact arithmetic. The range `b - a + 1` is computed in `uint32_t`,
so the full range wraps to 0. -/
def sbRandUniform (x : UInt64) (a b : Nat) : Nat :=
  (a + sbRandUniformDouble x * ((b + 2 ^ 32 - a + 1) % 2 ^ 32) / 2 ^ 52) % 2 ^ 32

/-- `a + k / 2^52 * width` in doubles, over 2^52: the product is rounded, and the sum too. -/
def roundedSum (k a width : Nat) : Nat := roundDouble (a * 2 ^ 52 + roundDouble (k * width))

/-- `sb_rand_uniform` in doubles. -/
def sbRandUniformRounded (x : UInt64) (a b : Nat) : Nat :=
  roundedSum (sbRandUniformDouble x) a ((b + 2 ^ 32 - a + 1) % 2 ^ 32) / 2 ^ 52 % 2 ^ 32

theorem uniform_double_lt (x : UInt64) : sbRandUniformDouble x < 2 ^ 52 := by
  have wordBound : x.toNat < 2 ^ 64 := x.toNat_lt
  unfold sbRandUniformDouble
  omega

/-- A draw scaled to `width` values falls on one of them, or on 0 if there are none. -/
theorem scaled_draw_le (x : UInt64) (width : Nat) :
    sbRandUniformDouble x * width / 2 ^ 52 ≤ width - 1 := by
  have below := uniform_double_lt x
  cases width with
  | zero => simp
  | succ last =>
      have product : sbRandUniformDouble x * (last + 1) < 2 ^ 52 * (last + 1) :=
        Nat.mul_lt_mul_of_pos_right below (Nat.succ_pos last)
      have quotient := Nat.div_lt_of_lt_mul product
      omega

theorem uniform_from_zero_le (x : UInt64) (b : Nat) (fits : b < 2 ^ 32) :
    sbRandUniform x 0 b ≤ b := by
  have width : (b + 2 ^ 32 - 0 + 1) % 2 ^ 32 ≤ b + 1 := by omega
  have draw := scaled_draw_le x ((b + 2 ^ 32 - 0 + 1) % 2 ^ 32)
  unfold sbRandUniform
  have reduced := Nat.mod_le
    (0 + sbRandUniformDouble x * ((b + 2 ^ 32 - 0 + 1) % 2 ^ 32) / 2 ^ 52) (2 ^ 32)
  omega

theorem rounded_sum_mono {k last : Nat} (below : k ≤ last) (a width : Nat) :
    roundedSum k a width ≤ roundedSum last a width :=
  round_double_mono (Nat.add_le_add_left (round_double_mono (Nat.mul_le_mul_right _ below)) _)

theorem rounded_sum_low (k a width : Nat) (fits : a ≤ 2 ^ 32) :
    a * 2 ^ 52 ≤ roundedSum k a width :=
  le_round_double (exact_of_multiple 52 (by omega) (Nat.dvd_mul_left _ _)) (Nat.le_add_right _ _)

/-- Rounding can reach the number behind the range. -/
theorem rounded_sum_high (k a width : Nat) (mantissa : k < 2 ^ 52) (fits : a + width ≤ 2 ^ 32) :
    roundedSum k a width ≤ (a + width) * 2 ^ 52 := by
  have draw : k * width ≤ width * 2 ^ 52 := by
    rw [Nat.mul_comm]
    exact Nat.mul_le_mul_left _ (Nat.le_of_lt mantissa)
  have product := round_double_le
    (exact_of_multiple (n := width * 2 ^ 52) 52 (by omega) (Nat.dvd_mul_left _ _)) draw
  refine round_double_le (exact_of_multiple 52 (by omega) (Nat.dvd_mul_left _ _)) ?_
  rw [Nat.add_mul]
  omega

theorem exact_short_of (bits total : Nat) (few : bits ≤ 52) (small : total ≤ 2 ^ (bits + 1)) :
    Exact (total * 2 ^ 52 - 2 ^ bits) := by
  rcases Nat.eq_zero_or_pos total with rfl | positive
  · rw [Nat.zero_mul, Nat.zero_sub]
    exact Nat.dvd_zero _
  refine exact_of_multiple bits ?_ (Nat.dvd_sub ?_ (Nat.dvd_refl _))
  · have scaled : total * 2 ^ 52 ≤ 2 ^ (bits + 1) * 2 ^ 52 := Nat.mul_le_mul_right _ small
    have power : 0 < 2 ^ bits := Nat.two_pow_pos bits
    rw [← Nat.pow_add, Nat.add_right_comm] at scaled
    have sizes : bits + 52 + 1 = bits + 53 := rfl
    rw [sizes] at scaled
    omega
  · exact Nat.dvd_mul_left_of_dvd (Nat.pow_dvd_pow 2 few) total

/-- It does not where the sums have no more bits than the products. -/
theorem rounded_sum_inside (k a width : Nat) (mantissa : k < 2 ^ 52) (some_ : 0 < width)
    (fits : width ≤ 2 ^ 32) (same : a + width ≤ 2 ^ (Nat.log2 width + 1)) :
    roundedSum k a width < (a + width) * 2 ^ 52 := by
  have power := Nat.log2_self_le (Nat.pos_iff_ne_zero.mp some_)
  have positive : 0 < 2 ^ Nat.log2 width := Nat.two_pow_pos _
  have few : Nat.log2 width ≤ 52 := by
    by_contra many
    have large : 2 ^ 53 ≤ 2 ^ Nat.log2 width := Nat.pow_le_pow_right (by decide) (by omega)
    omega
  -- both the greatest product and its sum with `a` stay a step of `width` short of the end
  have draw : k * width ≤ width * 2 ^ 52 - 2 ^ Nat.log2 width := by
    have most : k * width ≤ (2 ^ 52 - 1) * width :=
      Nat.mul_le_mul_right _ (Nat.le_sub_one_of_lt mantissa)
    rw [Nat.sub_one_mul] at most
    omega
  have product := round_double_le (exact_short_of _ width few (by omega)) draw
  have sum : roundedSum k a width ≤ (a + width) * 2 ^ 52 - 2 ^ Nat.log2 width := by
    refine round_double_le (exact_short_of _ (a + width) few same) ?_
    rw [Nat.add_mul]
    omega
  omega

/-- Every number drawn is in the range or the one behind it. -/
theorem uniform_rounded_between (x : UInt64) (a b : Nat) (range : a ≤ b)
    (fits : b + 1 < 2 ^ 32) :
    a ≤ sbRandUniformRounded x a b ∧ sbRandUniformRounded x a b ≤ b + 1 := by
  have width : (b + 2 ^ 32 - a + 1) % 2 ^ 32 = b - a + 1 := by omega
  have low := rounded_sum_low (sbRandUniformDouble x) a (b - a + 1) (by omega)
  have high := rounded_sum_high _ a (b - a + 1) (uniform_double_lt x) (by omega)
  unfold sbRandUniformRounded
  rw [width]
  omega

/-- The mantissa `last` is the greatest whose sum stays in the range. -/
theorem uniform_rounded_le_iff (x : UInt64) (a b last : Nat) (range : a ≤ b)
    (fits : b + 1 < 2 ^ 32) (stays : roundedSum last a (b - a + 1) < (b + 1) * 2 ^ 52)
    (leaves : (b + 1) * 2 ^ 52 ≤ roundedSum (last + 1) a (b - a + 1)) :
    sbRandUniformRounded x a b ≤ b ↔ sbRandUniformDouble x ≤ last := by
  have width : (b + 2 ^ 32 - a + 1) % 2 ^ 32 = b - a + 1 := by omega
  have high := rounded_sum_high _ a (b - a + 1) (uniform_double_lt x) (by omega)
  unfold sbRandUniformRounded
  rw [width]
  constructor
  · intro inside
    by_contra greater
    have later := rounded_sum_mono (Nat.lt_of_not_le greater) a (b - a + 1)
    rw [Nat.succ_eq_add_one] at later
    omega
  · intro few
    have earlier := rounded_sum_mono few a (b - a + 1)
    omega

/-- From 0 or 1 on the draws stay in the range. -/
theorem uniform_rounded_inside (x : UInt64) (a b : Nat) (least : a ≤ 1) (range : a ≤ b)
    (fits : b < 2 ^ 32) : a ≤ sbRandUniformRounded x a b ∧ sbRandUniformRounded x a b ≤ b := by
  unfold sbRandUniformRounded
  rcases Nat.eq_zero_or_pos ((b + 2 ^ 32 - a + 1) % 2 ^ 32) with wrapped | some_
  · -- only the full range wraps, and it draws 0
    rw [wrapped, roundedSum, Nat.mul_zero, round_double_zero, Nat.add_zero,
      round_double_exact (exact_of_multiple 52 (by omega) (Nat.dvd_mul_left _ _))]
    omega
  · have width : (b + 2 ^ 32 - a + 1) % 2 ^ 32 = b - a + 1 := by omega
    have next : b - a + 1 < 2 ^ (Nat.log2 (b - a + 1) + 1) := Nat.lt_log2_self
    have low := rounded_sum_low (sbRandUniformDouble x) a (b - a + 1) (by omega)
    have high := rounded_sum_inside _ a (b - a + 1) (uniform_double_lt x) (by omega) (by omega)
      (by omega)
    rw [width]
    omega

/-- Every mantissa is drawn. -/
theorem uniform_double_drawn (k : Nat) (mantissa : k < 2 ^ 52) :
    ∃ x, sbRandUniformDouble x = k := by
  refine ⟨.ofNat (k * 2 ^ 12), ?_⟩
  rw [sbRandUniformDouble, UInt64.toNat_ofNat']
  omega

/-- Of at most 2^52 values each is the scaled draw of some mantissa. -/
theorem scaled_draw_every (width value : Nat) (fits : width ≤ 2 ^ 52) (inside : value < width) :
    ∃ x, sbRandUniformDouble x * width / 2 ^ 52 = value := by
  have positive : 0 < width := Nat.lt_of_le_of_lt (Nat.zero_le value) inside
  have above := Nat.lt_div_mul_add (a := value * 2 ^ 52 + (width - 1)) positive
  have high := Nat.div_mul_le_self (value * 2 ^ 52 + (width - 1)) width
  -- the least mantissa that reaches the value
  generalize (value * 2 ^ 52 + (width - 1)) / width = k at above high
  have mantissa : k < 2 ^ 52 := by
    by_contra large
    have product : 2 ^ 52 * width ≤ k * width := Nat.mul_le_mul_right _ (Nat.not_lt.mp large)
    have next : (value + 1) * 2 ^ 52 ≤ width * 2 ^ 52 := Nat.mul_le_mul_right _ inside
    omega
  obtain ⟨x, drawn⟩ := uniform_double_drawn k mantissa
  refine ⟨x, ?_⟩
  rw [drawn]
  omega

end PteSysbench.SbRand
