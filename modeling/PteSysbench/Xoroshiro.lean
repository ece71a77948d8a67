import PteSysbench.BinaryPolynomials
import PteSysbench.SbRand
import Mathlib.Data.Nat.Bitwise

/-!
The generator of `xoroshiro128plus.h`, which every draw of `sb_rand.c` comes from. Its step
is linear over the field of two elements, so that what many steps do is a polynomial in
the step, taken modulo the one that the step is a root of.
-/

namespace PteSysbench.Xoroshiro

open BinaryPolynomials

/-- `sb_rng_state_t`. -/
@[ext]
structure State where
  s0 : UInt64
  s1 : UInt64
  deriving DecidableEq

def xoroshiroRotl (x k : UInt64) : UInt64 := (x <<< k) ||| (x >>> (64 - k))

/-- `xoroshiro_next`: the result and what it leaves in its array. -/
def xoroshiroNext (s : State) : UInt64 × State :=
  let s1 := s.s1 ^^^ s.s0
  (s.s0 + s.s1,
    { s0 := xoroshiroRotl s.s0 55 ^^^ s1 ^^^ (s1 <<< 14), s1 := xoroshiroRotl s1 36 })

/-- `sb_rand_uniform_uint64`. -/
def sbRandUniformUint64 (s : State) : UInt64 × State := xoroshiroNext s

/-- JUMP. -/
def jump : List UInt64 := [0xbeac0467eba5facb, 0xd86b048b86aa9922]

/-- The body of the inner loop of `xoroshiro_jump`, on the sum so far and the array. -/
def jumpBit (word : UInt64) (s : State × State) (b : Nat) : State × State :=
  let sum :=
    if word &&& (1 <<< UInt64.ofNat b) ≠ 0 then
      { s0 := s.1.s0 ^^^ s.2.s0, s1 := s.1.s1 ^^^ s.2.s1 }
    else s.1
  (sum, (xoroshiroNext s.2).2)

def xoroshiroJump (s : State) : State :=
  (jump.foldl (fun s word => (List.range 64).foldl (jumpBit word) s) ({ s0 := 0, s1 := 0 }, s)).1

/-- `sb_rand_thread_init` on four results of `random`. -/
def sbRandThreadInit (a b c d : UInt64) : State :=
  { s0 := (a <<< 32) ||| (b &&& 0xFFFFFFFF), s1 := (c <<< 32) ||| (d &&& 0xFFFFFFFF) }

/-! The states as a group, and the step as a map of it. -/
section Linear

instance : Zero State := ⟨{ s0 := 0, s1 := 0 }⟩

instance : Add State := ⟨fun s t => { s0 := s.s0 ^^^ t.s0, s1 := s.s1 ^^^ t.s1 }⟩

instance : Neg State := ⟨id⟩

theorem add_self_state (s : State) : s + s = 0 :=
  State.ext (UInt64.xor_self) (UInt64.xor_self)

instance : AddCommGroup State where
  add_assoc s t u := State.ext (UInt64.xor_assoc _ _ _) (UInt64.xor_assoc _ _ _)
  zero_add s := State.ext UInt64.zero_xor UInt64.zero_xor
  add_zero s := State.ext UInt64.xor_zero UInt64.xor_zero
  nsmul := nsmulRec
  zsmul := zsmulRec
  neg_add_cancel s := add_self_state s
  add_comm s t := State.ext (UInt64.xor_comm _ _) (UInt64.xor_comm _ _)

theorem rotl_bits (x k : UInt64) (some_ : 0 < k.toNat) (small : k.toNat < 64) :
    (xoroshiroRotl x k).toBitVec = x.toBitVec.rotateLeft k.toNat := by
  have left : (k.toBitVec % 64).toNat = k.toNat % 64 := BitVec.toNat_umod
  have right : ((64 - k).toBitVec % 64).toNat = 64 - k.toNat % 64 := by
    rw [BitVec.toNat_umod]
    show (64 - k).toNat % 64 = 64 - k.toNat % 64
    rw [UInt64.toNat_sub]
    have word : (64 : UInt64).toNat = 64 := rfl
    omega
  rw [xoroshiroRotl, BitVec.rotateLeft_def, UInt64.toBitVec_or, UInt64.toBitVec_shiftLeft,
    UInt64.toBitVec_shiftRight, BitVec.shiftLeft_eq', BitVec.ushiftRight_eq', left, right]

theorem rotate_xor (x y : BitVec 64) (n : Nat) :
    (x ^^^ y).rotateLeft n = x.rotateLeft n ^^^ y.rotateLeft n := by
  ext i bound
  rw [BitVec.getElem_xor]
  simp only [BitVec.getElem_rotateLeft]
  split <;> exact BitVec.getElem_xor _

theorem rotl_xor (x y k : UInt64) (some_ : 0 < k.toNat) (small : k.toNat < 64) :
    xoroshiroRotl (x ^^^ y) k = xoroshiroRotl x k ^^^ xoroshiroRotl y k := by
  apply UInt64.toBitVec_inj.mp
  rw [UInt64.toBitVec_xor]
  simp only [rotl_bits _ k some_ small, UInt64.toBitVec_xor, rotate_xor]

theorem xor_shuffle (a b c d : UInt64) : (a ^^^ b) ^^^ (c ^^^ d) = (a ^^^ c) ^^^ (b ^^^ d) := by
  rw [UInt64.xor_assoc, ← UInt64.xor_assoc b, UInt64.xor_comm b, UInt64.xor_assoc c,
    UInt64.xor_assoc]

def advance : AddMonoid.End State where
  toFun s := (xoroshiroNext s).2
  map_zero' := by decide
  map_add' s t := by
    have mixed : (s + t).s1 ^^^ (s + t).s0 = (s.s1 ^^^ s.s0) ^^^ (t.s1 ^^^ t.s0) :=
      xor_shuffle _ _ _ _
    apply State.ext
    · show xoroshiroRotl (s.s0 ^^^ t.s0) 55 ^^^ ((s + t).s1 ^^^ (s + t).s0) ^^^
        (((s + t).s1 ^^^ (s + t).s0) <<< 14) = _ ^^^ _
      rw [mixed, rotl_xor _ _ 55 (by decide) (by decide), UInt64.shiftLeft_xor,
        xor_shuffle (xoroshiroRotl s.s0 55),
        xor_shuffle (xoroshiroRotl s.s0 55 ^^^ (s.s1 ^^^ s.s0))]
      rfl
    · show xoroshiroRotl ((s + t).s1 ^^^ (s + t).s0) 36 = _
      rw [mixed, rotl_xor _ _ 36 (by decide) (by decide)]
      rfl

theorem advance_apply (s : State) : advance s = (xoroshiroNext s).2 := rfl
end Linear

/-! The polynomial that the step is a root of. -/
section Minimal

/-- The minimal polynomial for the shifts 55, 14 and 36. -/
def minimal : Nat := 0x100653ced7f29f88a5fd66762f0e1c001

def rotlNat (x k : Nat) : Nat := (x <<< k % 2 ^ 64) ||| (x >>> (64 - k))

/-- The sum of steps from the state `s` that the lowest `n` bits of `p` say, onto `r`. -/
def stepsNat : Nat → Nat → Nat → Nat → Nat → Nat → Nat
  | 0, _, _, _, r0, r1 => r0 + 2 ^ 64 * r1
  | n + 1, p, s0, s1, r0, r1 =>
      stepsNat n (p / 2)
        (rotlNat s0 55 ^^^ (s1 ^^^ s0) ^^^ ((s1 ^^^ s0) <<< 14 % 2 ^ 64))
        (rotlNat (s1 ^^^ s0) 36) (r0 ^^^ s0 * (p % 2)) (r1 ^^^ s1 * (p % 2))

theorem rotl_nat (x k : UInt64) (small : 0 < k.toNat ∧ k.toNat < 64) :
    (xoroshiroRotl x k).toNat = rotlNat x.toNat k.toNat := by
  have right : (64 - k).toNat % 64 = 64 - k.toNat := by
    rw [UInt64.toNat_sub]
    have word : (64 : UInt64).toNat = 64 := rfl
    omega
  rw [xoroshiroRotl, UInt64.toNat_or, UInt64.toNat_shiftLeft, UInt64.toNat_shiftRight, right,
    Nat.mod_eq_of_lt small.2]
  rfl

theorem steps_nat (n p : Nat) (s r : State) :
    stepsNat n p s.s0.toNat s.s1.toNat r.s0.toNat r.s1.toNat =
      (r + value advance n p s).s0.toNat + 2 ^ 64 * (r + value advance n p s).s1.toNat := by
  induction n generalizing p s r with
  | zero => simp [stepsNat, value]
  | succ n ih =>
      have moved : (advance s).s0.toNat = rotlNat s.s0.toNat 55 ^^^
          (s.s1.toNat ^^^ s.s0.toNat) ^^^ ((s.s1.toNat ^^^ s.s0.toNat) <<< 14 % 2 ^ 64) ∧
          (advance s).s1.toNat = rotlNat (s.s1.toNat ^^^ s.s0.toNat) 36 := by
        constructor
        · simp only [advance_apply, xoroshiroNext, UInt64.toNat_xor, UInt64.toNat_shiftLeft,
            rotl_nat _ 55 (by decide)]
          rfl
        · simp only [advance_apply, xoroshiroNext, UInt64.toNat_xor, rotl_nat _ 36 (by decide)]
          rfl
      have added : (r + (p % 2) • s).s0.toNat = r.s0.toNat ^^^ s.s0.toNat * (p % 2) ∧
          (r + (p % 2) • s).s1.toNat = r.s1.toNat ^^^ s.s1.toNat * (p % 2) := by
        rcases Nat.mod_two_eq_zero_or_one p with bit | bit <;> rw [bit]
        · simp
        · rw [one_nsmul, Nat.mul_one, Nat.mul_one]
          exact ⟨UInt64.toNat_xor _ _, UInt64.toNat_xor _ _⟩
      rw [stepsNat, ← moved.1, ← moved.2, ← added.1, ← added.2, ih, value_apply, add_assoc]

/-- The state whose bits are those of a number. -/
def ofBits (p : Nat) : State := { s0 := UInt64.ofNat p, s1 := UInt64.ofNat (p / 2 ^ 64) }

theorem of_bits_xor (p q : Nat) : ofBits (p ^^^ q) = ofBits p + ofBits q := by
  apply State.ext
  · exact UInt64.ofNat_xor p q
  · show UInt64.ofNat ((p ^^^ q) / 2 ^ 64) = _
    rw [Nat.xor_div_two_pow]
    exact UInt64.ofNat_xor _ _

theorem of_bits_surjective (s : State) : ∃ p < 2 ^ 128, ofBits p = s := by
  have low := s.s0.toNat_lt
  have high := s.s1.toNat_lt
  refine ⟨s.s0.toNat + 2 ^ 64 * s.s1.toNat, by omega, ?_⟩
  have first : (s.s0.toNat + 2 ^ 64 * s.s1.toNat) % 2 ^ 64 = s.s0.toNat := by omega
  have second : (s.s0.toNat + 2 ^ 64 * s.s1.toNat) / 2 ^ 64 = s.s1.toNat := by omega
  apply State.ext <;> apply UInt64.toNat_inj.mp
  · rw [ofBits, UInt64.toNat_ofNat', first]
  · rw [ofBits, UInt64.toNat_ofNat', second, Nat.mod_eq_of_lt high]

theorem powers_vanish : (List.range 128).all (fun i =>
    stepsNat 129 minimal (2 ^ i % 2 ^ 64) (2 ^ i / 2 ^ 64) 0 0 == 0) = true := by
  decide +kernel

theorem minimal_root : Root advance 128 minimal where
  even := maps_even add_self_state
  degree := by decide
  monic := by decide
  zero := by
    refine AddMonoidHom.ext fun s => ?_
    obtain ⟨p, bound, rfl⟩ := of_bits_surjective s
    refine vanishes_of_powers (fun p => value advance 129 minimal (ofBits p)) (map_zero _)
      (fun p q => by rw [of_bits_xor, map_add]) 128 (fun i below => ?_) p bound
    have found := List.all_eq_true.mp powers_vanish i (List.mem_range.mpr below)
    have word : 2 ^ i / 2 ^ 64 < 2 ^ 64 := by
      rw [Nat.div_lt_iff_lt_mul (by decide), ← Nat.pow_add]
      exact Nat.pow_lt_pow_right (by decide) below
    have low : (ofBits (2 ^ i)).s0.toNat = 2 ^ i % 2 ^ 64 := UInt64.toNat_ofNat'
    have high : (ofBits (2 ^ i)).s1.toNat = 2 ^ i / 2 ^ 64 := by
      rw [ofBits, UInt64.toNat_ofNat', Nat.mod_eq_of_lt word]
    have steps := steps_nat 129 minimal (ofBits (2 ^ i)) 0
    rw [low, high, show (0 : State).s0.toNat = 0 from rfl, show (0 : State).s1.toNat = 0 from rfl,
      beq_iff_eq.mp found, zero_add] at steps
    have nothing := Nat.add_eq_zero_iff.mp steps.symm
    refine State.ext (UInt64.toNat_inj.mp nothing.1) (UInt64.toNat_inj.mp ?_)
    exact (Nat.mul_eq_zero.mp nothing.2).resolve_left (by decide)
end Minimal

/-! `xoroshiro_jump`. -/
section Jumps

theorem jump_bit (word : UInt64) (b : Nat) (below : b < 64) :
    word &&& (1 <<< UInt64.ofNat b) ≠ 0 ↔ word.toNat / 2 ^ b % 2 = 1 := by
  have place : (UInt64.ofNat b).toNat % 64 = b := by
    rw [UInt64.toNat_ofNat', Nat.mod_eq_of_lt (Nat.lt_trans below (by decide)),
      Nat.mod_eq_of_lt below]
  have power : 2 ^ b < 2 ^ 64 := Nat.pow_lt_pow_right (by decide) below
  have whole : (word &&& (1 <<< UInt64.ofNat b)).toNat = word.toNat &&& 2 ^ b := by
    rw [UInt64.toNat_and, UInt64.toNat_shiftLeft, place, UInt64.toNat_one, Nat.one_shiftLeft,
      Nat.mod_eq_of_lt power]
  have zero : word &&& (1 <<< UInt64.ofNat b) = 0 ↔ word.toNat &&& 2 ^ b = 0 := by
    rw [← UInt64.toNat_inj, whole]
    rfl
  rw [Ne, zero, Nat.and_two_pow, Nat.testBit_eq_decide_div_mod_eq]
  by_cases set : word.toNat / 2 ^ b % 2 = 1 <;> simp [set]

/-- One run of the inner loop adds what its word says of the steps to the sum. -/
theorem jump_word (word : UInt64) (sum s : State) (n : Nat) (within : n ≤ 64) :
    (List.range n).foldl (jumpBit word) (sum, s) =
      (sum + value advance n word.toNat s, (advance ^ n) s) := by
  induction n with
  | zero => simp [value]
  | succ n ih =>
      rw [List.range_succ, List.foldl_append, ih (Nat.le_of_succ_le within), value_top]
      simp only [List.foldl_cons, List.foldl_nil, jumpBit, jump_bit word n within]
      have moved : (xoroshiroNext ((advance ^ n) s)).2 = (advance ^ (n + 1)) s := by
        rw [pow_succ']
        rfl
      rw [moved]
      congr 1
      rcases Nat.mod_two_eq_zero_or_one (word.toNat / 2 ^ n) with bit | bit <;> rw [bit]
      · simp
      · rw [if_pos rfl, Nat.cast_one, one_mul]
        exact add_assoc sum _ _

theorem jump_words (low high : UInt64) (s : State) :
    ([low, high].foldl (fun s word => (List.range 64).foldl (jumpBit word) s) (0, s)).1 =
      value advance 128 (low.toNat + 2 ^ 64 * high.toNat) s := by
  have parts := value_append (x := advance) 64 64 low.toNat high.toNat low.toNat_lt
  have order := ((value_commute (x := advance) 64 high.toNat).pow_left 64).eq
  rw [parts, order, List.foldl_cons, List.foldl_cons, List.foldl_nil,
    jump_word low 0 s 64 (Nat.le_refl _), jump_word high _ _ 64 (Nat.le_refl _), zero_add]
  generalize value advance 64 low.toNat = first, value advance 64 high.toNat = second,
    advance ^ 64 = moved
  rfl

/-- The polynomial of JUMP. -/
def jumpPolynomial : Nat := 0xbeac0467eba5facb + 2 ^ 64 * 0xd86b048b86aa9922

theorem jump_value (s : State) : xoroshiroJump s = value advance 128 jumpPolynomial s :=
  jump_words 0xbeac0467eba5facb 0xd86b048b86aa9922 s

theorem jump_power : PowerOf advance 128 jumpPolynomial (2 ^ 64) :=
  (power_of_two (by decide)).raise minimal_root (by decide) 65 (2 ^ 64) (by decide) (by decide)
    (by decide +kernel)

/-- The array of a caller after some number of draws. -/
def after (n : Nat) (s : State) : State := (fun s => (xoroshiroNext s).2)^[n] s

theorem after_power (n : Nat) (s : State) : after n s = (advance ^ n) s := by
  rw [AddMonoid.End.coe_pow]
  rfl

/-- A jump is 2^64 draws. -/
theorem jump_is_draws (s : State) : xoroshiroJump s = after (2 ^ 64) s := by
  rw [jump_value, after_power, ← jump_power.equal]
end Jumps
end PteSysbench.Xoroshiro
