import Mathlib.NumberTheory.LegendreSymbol.Basic

/-!
Squares modulo a prime congruent to 3 mod 4. The numbers up to half the prime are
sent to their squares and the others to the negated squares; since -1 is no
square, the two halves do not meet.
-/

namespace PteSysbench.SquareFold

/-- The square of the lower half, its negation on the upper half. -/
def foldSquare (p x : Nat) : Nat :=
  if x ≤ p / 2 then x * x % p else p - x * x % p

/-- The product of the `2 ^ depth` numbers from `first` on, halved level by level. -/
def blockProduct : Nat → Nat → Nat
  | 0, first => first
  | depth + 1, first => blockProduct depth first * blockProduct depth (first + 2 ^ depth)

theorem divides_block (depth first m : Nat) (low : first ≤ m) (high : m < first + 2 ^ depth) :
    m ∣ blockProduct depth first := by
  induction depth generalizing first with
  | zero =>
      have same : m = first := by omega
      exact dvd_of_eq same
  | succ depth ih =>
      rw [pow_succ] at high
      by_cases left : m < first + 2 ^ depth
      · exact (ih first low left).mul_right _
      · exact (ih (first + 2 ^ depth) (Nat.not_lt.mp left) (by omega)).mul_left _

/-- Trial division by every number up to the square root, as one common divisor. -/
theorem prime_of_block (p depth : Nat) (large : 2 ≤ p) (small : p < (2 ^ depth) ^ 2)
    (coprime : Nat.gcd p (blockProduct depth 2) = 1) : p.Prime := by
  rw [Nat.prime_def_le_sqrt]
  refine ⟨large, fun m two root divides => ?_⟩
  have square : m * m ≤ p := Nat.le_sqrt.mp root
  have bound : m < 2 ^ depth := by
    by_contra high
    have := Nat.mul_le_mul (Nat.not_lt.mp high) (Nat.not_lt.mp high)
    rw [pow_two] at small
    omega
  have common := Nat.dvd_gcd divides (divides_block depth 2 m two (by omega))
  rw [coprime] at common
  have := Nat.le_of_dvd Nat.one_pos common
  omega

section Fold
variable {p : Nat} [prime : Fact p.Prime]

theorem square_eq_cases (x y : Nat) (same : (x : ZMod p) * x = y * y) :
    p ∣ x + y ∨ (x : ZMod p) = y := by
  have factors : ((x : ZMod p) + y) * (x - y) = 0 := by
    rw [← mul_self_sub_mul_self, same, sub_self]
  rcases mul_eq_zero.mp factors with sum | difference
  · left
    rw [← ZMod.natCast_eq_zero_iff]
    exact_mod_cast sum
  · exact Or.inr (sub_eq_zero.mp difference)

theorem cast_injective (x y : Nat) (xBound : x < p) (yBound : y < p)
    (same : (x : ZMod p) = y) : x = y := by
  have residues := (ZMod.natCast_eq_natCast_iff' x y p).mp same
  rwa [Nat.mod_eq_of_lt xBound, Nat.mod_eq_of_lt yBound] at residues

theorem residue_cast (x : Nat) : ((x * x % p : Nat) : ZMod p) = (x : ZMod p) * x := by
  rw [ZMod.natCast_mod, Nat.cast_mul]

theorem residue_pos (x : Nat) (positive : 0 < x) (bound : x < p) : 0 < x * x % p := by
  apply Nat.pos_of_ne_zero
  intro zero
  rcases prime.out.dvd_mul.mp (Nat.dvd_of_mod_eq_zero zero) with divides | divides <;>
    exact absurd (Nat.le_of_dvd positive divides) (Nat.not_le.mpr bound)

/-- Without a square root of -1, squares and negated squares are apart. -/
theorem square_ne_negated (three : p % 4 = 3) (x y : Nat) (positive : 0 < y) (bound : y < p) :
    (x : ZMod p) * x ≠ -((y : ZMod p) * y) := by
  intro same
  have nonzero : (y : ZMod p) ≠ 0 := by
    intro zero
    have := cast_injective (p := p) y 0 bound (Nat.lt_of_le_of_lt (Nat.zero_le _) bound)
      (by simpa using zero)
    omega
  have root : IsSquare (-1 : ZMod p) := by
    refine ⟨x / y, ?_⟩
    rw [div_mul_div_comm, same, neg_div, div_self (mul_ne_zero nonzero nonzero)]
  exact ZMod.exists_sq_eq_neg_one_iff.mp root three

theorem fold_lt (x : Nat) (bound : x < p) : foldSquare p x < p := by
  have residue := Nat.mod_lt (x * x) prime.out.pos
  unfold foldSquare
  split
  · exact residue
  · have positive := residue_pos x (by omega) bound
    omega

theorem fold_injective (three : p % 4 = 3) (x y : Nat) (xBound : x < p) (yBound : y < p)
    (same : foldSquare p x = foldSquare p y) : x = y := by
  have xResidue := Nat.mod_lt (x * x) prime.out.pos
  have yResidue := Nat.mod_lt (y * y) prime.out.pos
  have apart (low high : Nat) (positive : 0 < high) (bound : high < p)
      (met : low * low % p = p - high * high % p) : False := by
    apply square_ne_negated three low high positive bound
    rw [← residue_cast, ← residue_cast, met,
      Nat.cast_sub (Nat.le_of_lt (Nat.mod_lt _ prime.out.pos)), ZMod.natCast_self, zero_sub]
  have equal (squares : x * x % p = y * y % p) (sum : x + y = 0 ∨ ¬ p ∣ x + y) : x = y := by
    have inField : (x : ZMod p) * x = y * y := by
      rw [← residue_cast, ← residue_cast, squares]
    rcases square_eq_cases x y inField with divides | cast
    · rcases sum with zero | odd
      · omega
      · exact absurd divides odd
    · exact cast_injective x y xBound yBound cast
  unfold foldSquare at same
  by_cases xLow : x ≤ p / 2
  · by_cases yLow : y ≤ p / 2
    · -- two lower numbers add up to less than the prime
      rw [if_pos xLow, if_pos yLow] at same
      apply equal same
      by_cases zero : x + y = 0
      · exact Or.inl zero
      · refine Or.inr fun divides => ?_
        have least := Nat.le_of_dvd (Nat.pos_of_ne_zero zero) divides
        omega
    · rw [if_pos xLow, if_neg yLow] at same
      exact absurd (apart x y (by omega) yBound same) id
  · by_cases yLow : y ≤ p / 2
    · rw [if_neg xLow, if_pos yLow] at same
      exact absurd (apart y x (by omega) xBound same.symm) id
    · -- two upper numbers add up to more than the prime and less than twice the prime
      rw [if_neg xLow, if_neg yLow] at same
      apply equal (by omega)
      right
      rintro ⟨k, sum⟩
      have once : 1 < k := by
        by_contra few
        have : p * k ≤ p * 1 := Nat.mul_le_mul_left p (by omega)
        omega
      have twice : k < 2 := by
        by_contra many
        have : p * 2 ≤ p * k := Nat.mul_le_mul_left p (by omega)
        omega
      omega

end Fold
end PteSysbench.SquareFold
