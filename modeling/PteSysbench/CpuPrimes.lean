import Mathlib.Algebra.Order.Interval.Finset.SuccPred
import Mathlib.Analysis.Real.Sqrt
import Mathlib.Data.Nat.Prime.Basic
import Mathlib.Order.Interval.Finset.Nat

/-!
The event of sb_cpu.c: numbers below a limit are tried for divisors up to their square
root. `sqrt` is exact here, so that `l <= t` compares squares.
-/

namespace PteSysbench.CpuPrimes

/-- `cpu_init`; what it stores is an `unsigned int` taken from an `int`. -/
def cpuInit (primeOption : Int) : Except String { maxPrime : Nat // maxPrime < 2 ^ 32 } :=
  if primeOption ≤ 0 then
    .error ("Invalid value of cpu-max-prime: " ++ toString primeOption ++ ".")
  else .ok ⟨primeOption.toNat % 2 ^ 32, Nat.mod_lt _ (Nat.two_pow_pos 32)⟩

/-- `l <= t` with `t = sqrt(c)`. -/
def atMostSqrt (l c : Nat) : Bool := l * l ≤ c

theorem at_most_sqrt_iff (l c : Nat) : atMostSqrt l c = true ↔ (l : ℝ) ≤ √(c : ℝ) := by
  rw [Real.le_sqrt (Nat.cast_nonneg l) (Nat.cast_nonneg c), atMostSqrt, decide_eq_true_iff, sq]
  exact_mod_cast Iff.rfl

theorem le_of_at_most_sqrt {l c : Nat} (under : atMostSqrt l c = true) : l ≤ c :=
  Nat.le_trans (Nat.le_mul_self l) (of_decide_eq_true under)

/-- The inner loop from `l` on: where it stands when it ends. -/
def tryDivisors (c l : Nat) : Nat :=
  if under : atMostSqrt l c = true then
    if c % l = 0 then l else tryDivisors c (l + 1)
  else l
termination_by c + 1 - l
decreasing_by
  have below := le_of_at_most_sqrt under
  omega

/-- The outer loop from `c` on, with the counter of `cpu_execute_event`. -/
def countPrimes (maxPrime c n : Nat) : Nat :=
  if c < maxPrime then
    countPrimes maxPrime (c + 1) (if atMostSqrt (tryDivisors c 2) c then n else n + 1)
  else n
termination_by maxPrime - c

def cpuExecuteEvent (maxPrime : { maxPrime : Nat // maxPrime < 2 ^ 32 }) : Nat :=
  countPrimes maxPrime 3 0

/-! One number. -/
section Divisors
variable {c l : Nat}

/-- The loop ends at the first divisor, or past the square root if there is none. -/
theorem try_divisors_ends (none_ : ∀ d, 2 ≤ d → d < l → ¬ d ∣ c) (start : 2 ≤ l) :
    if atMostSqrt (tryDivisors c l) c then tryDivisors c l ∣ c ∧ 2 ≤ tryDivisors c l
    else ∀ d, 2 ≤ d → d < tryDivisors c l → ¬ d ∣ c := by
  induction l using tryDivisors.induct c with
  | case1 l under divides =>
      rw [tryDivisors, dif_pos under, if_pos divides, if_pos under]
      exact ⟨Nat.dvd_of_mod_eq_zero divides, start⟩
  | case2 l under rest ih =>
      rw [tryDivisors, dif_pos under, if_neg rest]
      refine ih (fun d two before => ?_) (Nat.le_succ_of_le start)
      rcases Nat.lt_succ_iff_lt_or_eq.mp before with earlier | rfl
      · exact none_ d two earlier
      · exact fun divides => rest (Nat.mod_eq_zero_of_dvd divides)
  | case3 l past =>
      rw [tryDivisors, dif_neg past, if_neg past]
      exact none_

/-- No counter comes near the range of its type. -/
theorem try_divisors_le (start : l ≤ c) : tryDivisors c l ≤ c + 1 := by
  induction l using tryDivisors.induct c with
  | case1 l under divides =>
      rw [tryDivisors, dif_pos under, if_pos divides]
      exact Nat.le_succ_of_le start
  | case2 l under rest ih =>
      rw [tryDivisors, dif_pos under, if_neg rest]
      rcases Nat.lt_or_ge l c with below | last
      · exact ih below
      · obtain rfl : l = c := Nat.le_antisymm start last
        exact absurd (Nat.mod_self l) rest
  | case3 l past =>
      rw [tryDivisors, dif_neg past]
      exact Nat.le_succ_of_le start

/-- A composite number has a divisor that is not above its square root. -/
theorem past_sqrt_iff_prime (three : 3 ≤ c) :
    atMostSqrt (tryDivisors c 2) c = false ↔ c.Prime := by
  have ends := try_divisors_ends (c := c) (fun d two before => absurd before (Nat.not_lt.mpr two))
    (Nat.le_refl 2)
  constructor
  · intro past
    rw [past, if_neg Bool.false_ne_true] at ends
    by_contra composite
    have factor := Nat.minFac_prime (n := c) (by omega)
    have square := Nat.minFac_sq_le_self (by omega) composite
    have beyond : ¬ tryDivisors c 2 * tryDivisors c 2 ≤ c := of_decide_eq_false past
    -- the loop went past the least divisor, as it stopped beyond the square root
    refine ends c.minFac factor.two_le ?_ (Nat.minFac_dvd c)
    exact Nat.mul_self_lt_mul_self_iff.mp (by rw [sq] at square; omega)
  · intro prime
    by_contra found
    rw [Bool.not_eq_false] at found
    rw [found, if_pos rfl] at ends
    obtain ⟨divides, two⟩ := ends
    have square : tryDivisors c 2 * tryDivisors c 2 ≤ c := of_decide_eq_true found
    -- the divisor found would be `c` itself, whose square is above `c`
    rcases prime.eq_one_or_self_of_dvd _ divides with one | same
    · omega
    · rw [same] at square
      have larger := Nat.mul_le_mul_right c three
      omega
end Divisors

/-! All numbers. -/
section Counts
open Finset

theorem count_primes_adds {maxPrime c n : Nat} (three : 3 ≤ c) :
    countPrimes maxPrime c n = n + #{p ∈ Ico c maxPrime | p.Prime} := by
  induction c, n using countPrimes.induct maxPrime with
  | case1 c n below ih =>
      simp only [dite_eq_ite] at ih
      rw [countPrimes, if_pos below, ih (Nat.le_succ_of_le three),
        ← insert_Ico_add_one_left_eq_Ico below, filter_insert]
      by_cases prime : c.Prime
      · rw [(past_sqrt_iff_prime three).mpr prime, if_neg Bool.false_ne_true, if_pos prime,
          card_insert_of_notMem (by simp)]
        omega
      · have found := Bool.not_eq_false _ ▸ mt (past_sqrt_iff_prime three).mp prime
        rw [found, if_pos rfl, if_neg prime]
  | case2 c n past =>
      rw [countPrimes, if_neg past, Ico_eq_empty_of_le (Nat.not_lt.mp past)]
      rfl

/-- Arithmetic in `unsigned long long` is as in the natural numbers here. -/
theorem counters_fit (maxPrime : { maxPrime : Nat // maxPrime < 2 ^ 32 }) :
    (∀ c : Nat, 3 ≤ c → c < maxPrime.val → tryDivisors c 2 < 2 ^ 64) ∧
      cpuExecuteEvent maxPrime < 2 ^ 64 := by
  have small := maxPrime.property
  constructor
  · intro c three below
    have bound : tryDivisors c 2 ≤ c + 1 := try_divisors_le (Nat.le_of_succ_le three)
    omega
  · have counted : #{p ∈ Ico 3 maxPrime.val | p.Prime} ≤ #(Ico 3 maxPrime.val) :=
      card_filter_le _ _
    rw [Nat.card_Ico] at counted
    rw [cpuExecuteEvent, count_primes_adds (Nat.le_refl 3)]
    omega

/-- The counter ends as the number of primes from 3 to below the limit. -/
theorem cpu_event_counts_primes (primeOption : Int)
    (maxPrime : { maxPrime : Nat // maxPrime < 2 ^ 32 })
    (accepted : cpuInit primeOption = .ok maxPrime) :
    (0 < primeOption → primeOption < 2 ^ 32 → (maxPrime : Int) = primeOption) ∧
      cpuExecuteEvent maxPrime = #{p ∈ Ico 3 maxPrime.val | p.Prime} ∧
      ∀ c : Nat, 3 ≤ c → (√(c : ℝ) < (tryDivisors c 2 : ℝ) ↔ c.Prime) := by
  refine ⟨fun positive fits => ?_, ?_, fun c three => ?_⟩
  · rw [cpuInit, if_neg (Int.not_le.mpr positive)] at accepted
    obtain rfl := Except.ok.inj accepted
    have inRange : primeOption.toNat < 2 ^ 32 := by omega
    show ((primeOption.toNat % 2 ^ 32 : Nat) : Int) = primeOption
    rw [Nat.mod_eq_of_lt inRange, Int.toNat_of_nonneg (Int.le_of_lt positive)]
  · rw [cpuExecuteEvent, count_primes_adds (Nat.le_refl 3), Nat.zero_add]
  · rw [← past_sqrt_iff_prime three, ← Bool.not_eq_true, at_most_sqrt_iff, not_le]

theorem cpu_event_counts_primes_ten :
    cpuInit 10 = .ok ⟨10, by decide⟩ ∧
      cpuExecuteEvent ⟨10, by decide⟩ = #{p ∈ Ico 3 10 | p.Prime} :=
  ⟨rfl, (cpu_event_counts_primes 10 ⟨10, by decide⟩ rfl).2.1⟩
end Counts
end PteSysbench.CpuPrimes
