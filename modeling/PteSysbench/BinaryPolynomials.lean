import Mathlib.Algebra.Group.Hom.End
import Mathlib.Algebra.Ring.Commute
import Mathlib.Data.Nat.Prime.Basic
import Mathlib.Dynamics.PeriodicPts.Defs

/-!
Polynomials over the field of two elements, with their coefficients as the bits of a
number, and their values at an element of a ring in which twice anything is zero. Where
a polynomial of degree `w` has the value zero, products of values can be computed on
numbers of `w` bits.
-/

namespace PteSysbench.BinaryPolynomials

/-! Values. -/
section Values
variable {R : Type*} [Ring R] {x : R}

/-- The value at `x` of the polynomial with the lowest `n` bits of `p`. -/
def value (x : R) : Nat → Nat → R
  | 0, _ => 0
  | n + 1, p => (p % 2 : Nat) + x * value x n (p / 2)

theorem value_zero (n : Nat) : value x n 0 = 0 := by
  induction n with
  | zero => rfl
  | succ n ih => simp [value, ih]

theorem value_double (n p : Nat) : value x (n + 1) (2 * p) = x * value x n p := by
  rw [value, Nat.mul_mod_right, Nat.mul_div_right p (by decide), Nat.cast_zero, zero_add]

theorem value_wider (n p : Nat) (bound : p < 2 ^ n) : value x (n + 1) p = value x n p := by
  induction n generalizing p with
  | zero =>
      have nothing : p = 0 := by omega
      simp [nothing, value]
  | succ n ih =>
      have half : p / 2 < 2 ^ n := by
        rw [Nat.pow_succ] at bound
        omega
      rw [value, ih (p / 2) half, value]

theorem value_one (n : Nat) : value x (n + 1) 1 = 1 := by
  simp [value, value_zero]

theorem value_two (n : Nat) : value x (n + 2) 2 = x := by
  calc value x (n + 2) 2
    _ = x * value x (n + 1) 1 := value_double (n + 1) 1
    _ = x := by rw [value_one, mul_one]

/-- The bits from the highest on. -/
theorem value_top (n p : Nat) :
    value x (n + 1) p = value x n p + (p / 2 ^ n % 2 : Nat) * x ^ n := by
  induction n generalizing p with
  | zero => simp [value]
  | succ n ih =>
      have quotient : p / 2 / 2 ^ n = p / 2 ^ (n + 1) := by
        rw [Nat.div_div_eq_div_mul, ← Nat.pow_succ']
      calc value x (n + 2) p
        _ = (p % 2 : Nat) + x * (value x n (p / 2) + (p / 2 / 2 ^ n % 2 : Nat) * x ^ n) := by
          rw [value, ih]
        _ = value x (n + 1) p + x * ((p / 2 / 2 ^ n % 2 : Nat) * x ^ n) := by
          rw [mul_add, ← add_assoc, ← value]
        _ = _ := by rw [← mul_assoc, ← Nat.cast_comm, mul_assoc, ← pow_succ', quotient]

theorem value_append (n k p q : Nat) (bound : p < 2 ^ n) :
    value x (n + k) (p + 2 ^ n * q) = value x n p + x ^ n * value x k q := by
  induction n generalizing p with
  | zero =>
      have nothing : p = 0 := by omega
      simp [nothing, value]
  | succ n ih =>
      rw [Nat.pow_succ'] at bound ⊢
      have bit : (p + 2 * 2 ^ n * q) % 2 = p % 2 := by
        rw [Nat.mul_assoc]
        omega
      have half : (p + 2 * 2 ^ n * q) / 2 = p / 2 + 2 ^ n * q := by
        rw [Nat.mul_assoc]
        omega
      rw [Nat.add_right_comm n 1 k, value, bit, half, ih (p / 2) (by omega),
        value, mul_add, ← mul_assoc, ← pow_succ', add_assoc]

theorem value_commute (n p : Nat) : Commute x (value x n p) := by
  induction n generalizing p with
  | zero => exact Commute.zero_right x
  | succ n ih =>
      exact (Nat.cast_commute (p % 2) x).symm.add_right ((Commute.refl x).mul_right (ih (p / 2)))

theorem value_xor (even : ∀ r : R, r + r = 0) (n p q : Nat) :
    value x n (p ^^^ q) = value x n p + value x n q := by
  induction n generalizing p q with
  | zero => simp [value]
  | succ n ih =>
      have bits : (((p ^^^ q) % 2 : Nat) : R) = (p % 2 : Nat) + (q % 2 : Nat) := by
        have twice : (1 : R) + 1 = 0 := even 1
        have odd : (p ^^^ q) % 2 = 1 ↔ ¬ (p % 2 = 1 ↔ q % 2 = 1) := Nat.xor_mod_two_eq_one
        have parity : (p ^^^ q) % 2 = (p % 2 + q % 2) % 2 := by omega
        rw [parity]
        rcases Nat.mod_two_eq_zero_or_one p with first | first <;>
          rcases Nat.mod_two_eq_zero_or_one q with second | second <;>
          simp [first, second, twice]
      rw [value, Nat.xor_div_two, ih, bits, value, value, mul_add]
      exact add_add_add_comm _ _ _ _
end Values

/-! Products modulo a polynomial. -/
section Products

/-- The product of `a` and the lowest bits of `b` modulo `modulus`, of degree `w`. -/
def product (w modulus a : Nat) : Nat → Nat → Nat
  | 0, _ => 0
  | k + 1, b =>
      let double := 2 * product w modulus a k (b / 2)
      (double ^^^ modulus * (double / 2 ^ w)) ^^^ a * (b % 2)

/-- The power of `a` whose exponent is the lowest `k` bits of `e`. -/
def power (w modulus a : Nat) : Nat → Nat → Nat
  | 0, _ => 1
  | k + 1, e =>
      let root := power w modulus a k (e / 2)
      let square := product w modulus root w root
      bif e % 2 == 1 then product w modulus a w square else square

variable {R : Type*} [Ring R] {x : R} {w modulus : Nat}

/-- A number of `w + 1` bits whose top bit is not set. -/
theorem top_cleared {n : Nat} (bound : n < 2 ^ (w + 1)) (clear : n.testBit w = false) :
    n < 2 ^ w := by
  refine Nat.lt_pow_two_of_testBit n fun i reached => ?_
  rcases Nat.eq_or_lt_of_le reached with same | above
  · rwa [← same]
  · exact Nat.testBit_lt_two_pow (Nat.lt_of_lt_of_le bound (Nat.pow_le_pow_right (by decide) above))

theorem reduced_lt {n : Nat} (bound : n < 2 ^ (w + 1)) (degree : modulus < 2 ^ (w + 1))
    (monic : modulus.testBit w = true) : n ^^^ modulus * (n / 2 ^ w) < 2 ^ w := by
  have some_ := Nat.two_pow_pos w
  rw [Nat.pow_succ] at bound
  have quotient : n / 2 ^ w < 2 := by
    rw [Nat.div_lt_iff_lt_mul some_]
    omega
  rcases Nat.le_one_iff_eq_zero_or_eq_one.mp (Nat.lt_succ_iff.mp quotient) with small | large
  · rw [small, Nat.mul_zero, Nat.xor_zero]
    have below := (Nat.div_eq_zero_iff).mp small
    omega
  · rw [large, Nat.mul_one]
    refine top_cleared (Nat.xor_lt_two_pow (by rw [Nat.pow_succ]; omega) degree) ?_
    have top : n.testBit w = true := by
      rw [Nat.testBit_eq_decide_div_mod_eq, large]
      rfl
    rw [Nat.testBit_xor, top, monic]
    rfl

structure Root (x : R) (w modulus : Nat) : Prop where
  even : ∀ r : R, r + r = 0
  degree : modulus < 2 ^ (w + 1)
  monic : modulus.testBit w = true
  zero : value x (w + 1) modulus = 0

theorem value_times (n a bit : Nat) (small : bit < 2) :
    value x n (a * bit) = value x n a * (bit : Nat) := by
  have split_ : bit = 0 ∨ bit = 1 := by omega
  rcases split_ with rfl | rfl <;> simp [value_zero]

theorem product_lt (root : Root x w modulus) {a : Nat} (small : a < 2 ^ w) (k b : Nat) :
    product w modulus a k b < 2 ^ w := by
  induction k generalizing b with
  | zero => exact Nat.two_pow_pos w
  | succ k ih =>
      have before := ih (b / 2)
      refine Nat.xor_lt_two_pow (reduced_lt ?_ root.degree root.monic) ?_
      · rw [Nat.pow_succ]
        omega
      · rcases Nat.mod_two_eq_zero_or_one b with bit | bit <;> rw [bit]
        · exact Nat.two_pow_pos w
        · rwa [Nat.mul_one]

/-- Taking the modulus off changes no value. -/
theorem value_reduced (root : Root x w modulus) {n : Nat} (bound : n < 2 ^ (w + 1)) :
    value x w (n ^^^ modulus * (n / 2 ^ w)) = value x (w + 1) n := by
  have quotient : n / 2 ^ w < 2 := by
    rw [Nat.div_lt_iff_lt_mul (Nat.two_pow_pos w), Nat.mul_comm, ← Nat.pow_succ]
    exact bound
  rw [← value_wider w _ (reduced_lt bound root.degree root.monic), value_xor root.even,
    value_times _ _ _ quotient, root.zero, zero_mul, add_zero]

theorem value_product (root : Root x w modulus) {a : Nat} (small : a < 2 ^ w) (k b : Nat) :
    value x w (product w modulus a k b) = value x w a * value x k b := by
  induction k generalizing b with
  | zero => simp [product, value, value_zero]
  | succ k ih =>
      have before := product_lt root small k (b / 2)
      have double : 2 * product w modulus a k (b / 2) < 2 ^ (w + 1) := by
        rw [Nat.pow_succ]
        omega
      have bit : b % 2 < 2 := Nat.mod_lt b (by decide)
      have swap : x * (value x w a * value x k (b / 2)) =
          value x w a * (x * value x k (b / 2)) := by
        rw [← mul_assoc, (value_commute w a).eq, mul_assoc]
      calc value x w (product w modulus a (k + 1) b)
        _ = x * (value x w a * value x k (b / 2)) + value x w a * (b % 2 : Nat) := by
          rw [product, value_xor root.even, value_reduced root double, value_double, ih,
            value_times _ _ _ bit]
        _ = value x w a * value x (k + 1) b := by rw [swap, value, mul_add, add_comm]

theorem power_lt (root : Root x w modulus) (some_ : 0 < w) {a : Nat} (small : a < 2 ^ w)
    (k e : Nat) : power w modulus a k e < 2 ^ w := by
  induction k generalizing e with
  | zero => exact Nat.one_lt_two_pow (Nat.ne_of_gt some_)
  | succ k ih =>
      rw [power]
      cases e % 2 == 1 with
      | true => exact product_lt root small _ _
      | false => exact product_lt root (ih (e / 2)) _ _

theorem value_power (root : Root x w modulus) (some_ : 0 < w) {a : Nat} (small : a < 2 ^ w)
    (k e : Nat) (bound : e < 2 ^ k) : value x w (power w modulus a k e) = value x w a ^ e := by
  induction k generalizing e with
  | zero =>
      obtain ⟨v, rfl⟩ := Nat.exists_eq_succ_of_ne_zero (Nat.ne_of_gt some_)
      have nothing : e = 0 := by omega
      rw [nothing, pow_zero, power, value_one]
  | succ k ih =>
      rw [Nat.pow_succ] at bound
      have half := ih (e / 2) (by omega)
      have square : value x w (product w modulus (power w modulus a k (e / 2)) w
          (power w modulus a k (e / 2))) = value x w a ^ (2 * (e / 2)) := by
        rw [value_product root (power_lt root some_ small k (e / 2)), half, ← pow_add, two_mul]
      rw [power]
      rcases Nat.mod_two_eq_zero_or_one e with even | odd
      · have whole : 2 * (e / 2) = e := by omega
        rw [show (e % 2 == 1) = false by rw [even]; rfl, cond_false, square, whole]
      · have whole : 2 * (e / 2) + 1 = e := by omega
        rw [show (e % 2 == 1) = true by rw [odd]; rfl, cond_true, value_product root small,
          square, ← pow_succ', whole]

/-- `a` stands for the power of `x` by `m`. -/
structure PowerOf (x : R) (w a m : Nat) : Prop where
  small : a < 2 ^ w
  equal : value x w a = x ^ m

theorem power_of_two (wide : 2 ≤ w) : PowerOf x w 2 1 := by
  obtain ⟨v, rfl⟩ := Nat.exists_eq_add_of_le' wide
  refine ⟨?_, by rw [value_two, pow_one]⟩
  calc 2
    _ < 2 ^ 2 := by decide
    _ ≤ 2 ^ (v + 2) := Nat.pow_le_pow_right (by decide) wide

theorem PowerOf.raise (root : Root x w modulus) (some_ : 0 < w) {a b m n : Nat}
    (known : PowerOf x w a m) (k e : Nat) (bound : e < 2 ^ k) (exponent : m * e = n)
    (computed : power w modulus a k e = b) : PowerOf x w b n := by
  rw [← computed, ← exponent]
  refine ⟨power_lt root some_ known.small k e, ?_⟩
  rw [value_power root some_ known.small k e bound, known.equal, pow_mul]

theorem PowerOf.inverse (root : Root x w modulus) (some_ : 0 < w) {a m : Nat}
    (known : PowerOf x w a m) (c : Nat) (small : c < 2 ^ w)
    (computed : product w modulus c w (a ^^^ 1) = 1) : ∃ d : R, d * (x ^ m + 1) = 1 := by
  obtain ⟨v, rfl⟩ := Nat.exists_eq_succ_of_ne_zero (Nat.ne_of_gt some_)
  refine ⟨value x (v + 1) c, ?_⟩
  rw [← known.equal, ← value_one (x := x) v, ← value_xor root.even, ← value_product root small,
    computed]
end Products

/-! Values at a map, on one element of the group. -/
section Maps
variable {S : Type*} [AddCommGroup S]

theorem value_apply (f : AddMonoid.End S) (n p : Nat) (s : S) :
    value f (n + 1) p s = (p % 2) • s + value f n (p / 2) (f s) := by
  have order : f (value f n (p / 2) s) = value f n (p / 2) (f s) :=
    congrArg (fun g : AddMonoid.End S => g s) (value_commute n (p / 2)).eq
  calc value f (n + 1) p s
    _ = ((p % 2 : Nat) : AddMonoid.End S) s + f (value f n (p / 2) s) := rfl
    _ = _ := by rw [AddMonoid.End.natCast_apply, order]

/-- What vanishes on the powers of two vanishes on all numbers of that many bits. -/
theorem vanishes_of_powers (g : Nat → S) (zero : g 0 = 0)
    (xor : ∀ a b, g (a ^^^ b) = g a + g b) (n : Nat) (powers : ∀ i < n, g (2 ^ i) = 0)
    (p : Nat) (bound : p < 2 ^ n) : g p = 0 := by
  induction n generalizing p with
  | zero =>
      have nothing : p = 0 := by omega
      rw [nothing, zero]
  | succ n ih =>
      have lower := ih fun i below => powers i (Nat.lt_succ_of_lt below)
      cases top : p.testBit n with
      | false => exact lower p (top_cleared bound top)
      | true =>
          have less : p ^^^ 2 ^ n < 2 ^ n := by
            refine top_cleared (Nat.xor_lt_two_pow bound ?_) ?_
            · exact Nat.pow_lt_pow_right (by decide) (Nat.lt_succ_self n)
            · rw [Nat.testBit_xor, top, Nat.testBit_two_pow_self]
              rfl
          have back : p = (p ^^^ 2 ^ n) ^^^ 2 ^ n := by
            rw [Nat.xor_assoc, Nat.xor_self, Nat.xor_zero]
          rw [back, xor, lower _ less, powers n (Nat.lt_succ_self n), add_zero]
end Maps

/-! Periods of the maps of a group in which twice anything is zero. -/
section Periods
variable {S : Type*} [AddCommGroup S]

theorem maps_even (even : ∀ s : S, s + s = 0) (f : AddMonoid.End S) : f + f = 0 :=
  AddMonoidHom.ext fun s => even (f s)

/-- A map whose `n`-th power is one, and whose powers by the largest divisors of `n` move
every element but zero, has all other elements on cycles of `n`. -/
theorem period_of_powers (even : ∀ s : S, s + s = 0) (f : AddMonoid.End S) (n : Nat)
    (whole : f ^ n = 1)
    (parts : ∀ p, p.Prime → p ∣ n → ∃ c : AddMonoid.End S, c * (f ^ (n / p) + 1) = 1)
    (s : S) (other : s ≠ 0) : Function.minimalPeriod f s = n := by
  have periodic : Function.IsPeriodicPt f n s := by
    show f^[n] s = s
    rw [← AddMonoid.End.coe_pow, whole]
    rfl
  have divides := periodic.minimalPeriod_dvd
  by_contra different
  obtain ⟨q, factor⟩ := divides
  have several : q ≠ 1 := by
    rintro rfl
    exact different (by rw [factor, Nat.mul_one])
  obtain ⟨p, prime, part⟩ := Nat.exists_prime_and_dvd several
  obtain ⟨r, rfl⟩ := part
  rw [Nat.mul_left_comm] at factor
  have shorter : n / p = Function.minimalPeriod f s * r :=
    Nat.div_eq_of_eq_mul_right prime.pos factor
  have fixed : (f ^ (n / p)) s = s := by
    rw [AddMonoid.End.coe_pow, shorter]
    exact (Function.isPeriodicPt_minimalPeriod f s).mul_const r
  obtain ⟨c, inverse⟩ := parts p prime ⟨_, factor⟩
  apply other
  calc s
    _ = (c * (f ^ (n / p) + 1)) s := by rw [inverse]; rfl
    _ = c ((f ^ (n / p)) s + s) := rfl
    _ = 0 := by rw [fixed, even, map_zero]
end Periods
end PteSysbench.BinaryPolynomials
