import PteSysbench.Xoroshiro
import Mathlib.Data.List.Prime
import Mathlib.NumberTheory.LucasPrimality
import Mathlib.Tactic.NormNum.Prime
import Mathlib.Tactic.ReduceModChar

/-!
The cycle of the generator. All states but the one of zeros lie on one cycle of
`2 ^ 128 - 1` states, which is shown on the prime factors of that number.
-/

namespace PteSysbench.XoroshiroPeriod

open BinaryPolynomials Xoroshiro

/-- The number of states that are not everywhere zero. -/
def period : Nat := 2 ^ 128 - 1

/-! The prime factors of the period. -/
section Factors

def factors : List Nat :=
  [3, 5, 17, 257, 641, 65537, 274177, 6700417, 67280421310721]

theorem factors_prod : factors.prod = period := by decide

theorem prime_of_sixth_fermat : Nat.Prime 67280421310721 := by
  refine lucas_primality _ 3 (by reduce_mod_char) fun q prime divides => ?_
  have split_ : 67280421310721 - 1 = [2, 2, 2, 2, 2, 2, 2, 2, 5, 47, 373, 2998279].prod := by
    decide
  have listed : q ∈ [2, 2, 2, 2, 2, 2, 2, 2, 5, 47, 373, 2998279] := by
    rw [split_] at divides
    refine mem_list_primes_of_dvd_prod prime.prime (fun r member => Nat.Prime.prime ?_) divides
    simp only [List.mem_cons, List.not_mem_nil, or_false] at member
    rcases member with rfl | rfl | rfl | rfl | rfl | rfl | rfl | rfl | rfl | rfl | rfl | rfl <;>
      norm_num
  have cases_ : q = 2 ∨ q = 5 ∨ q = 47 ∨ q = 373 ∨ q = 2998279 := by simpa using listed
  rcases cases_ with rfl | rfl | rfl | rfl | rfl <;> norm_num <;> reduce_mod_char <;>
    decide +kernel

theorem factors_prime (q : Nat) (member : q ∈ factors) : q.Prime := by
  simp only [factors, List.mem_cons, List.not_mem_nil, or_false] at member
  rcases member with rfl | rfl | rfl | rfl | rfl | rfl | rfl | rfl | rfl
  case inr.inr.inr.inr.inr.inr.inr.inr => exact prime_of_sixth_fermat
  all_goals norm_num

theorem factor_listed (p : Nat) (prime : p.Prime) (divides : p ∣ period) : p ∈ factors := by
  rw [← factors_prod] at divides
  exact mem_list_primes_of_dvd_prod prime.prime
    (fun q member => (factors_prime q member).prime) divides
end Factors

/-! The powers of the step by the largest divisors of the period. With the Fermat numbers
`2 ^ 2 ^ i + 1` for the factors, one power leads to the next. -/
section Powers

theorem raised {a b m n : Nat} (known : PowerOf advance 128 a m) (k e : Nat) (bound : e < 2 ^ k)
    (exponent : m * e = n) (computed : power 128 minimal a k e = b) : PowerOf advance 128 b n :=
  known.raise minimal_root (by decide) k e bound exponent computed

/-- The powers, by the exponent left out of the period. -/
theorem powers_computed :
    power 128 minimal 2 65 (2 ^ 64 + 1) = 0xb0b335fa727ccacf228e6fad27aa3597 ∧
    power 128 minimal 0xb0b335fa727ccacf228e6fad27aa3597 33 (2 ^ 32 + 1) =
      0x735fc0a9f6a2fc5d03650e32a7b373c5 ∧
    power 128 minimal 0x735fc0a9f6a2fc5d03650e32a7b373c5 17 65537 =
      0x93e25ba23b00d143bfcf44af13674cbe ∧
    power 128 minimal 0x93e25ba23b00d143bfcf44af13674cbe 9 257 =
      0x294e6d4e1a2384c0c34aaed3de299568 ∧
    power 128 minimal 0x294e6d4e1a2384c0c34aaed3de299568 5 17 =
      0xade264592ad1f79934f1b2f2f3650111 ∧
    power 128 minimal 0xade264592ad1f79934f1b2f2f3650111 3 5 =
      0xff8cefb76846895353ca0f0fe69d9ac1 ∧
    power 128 minimal 0xff8cefb76846895353ca0f0fe69d9ac1 2 3 = 1 := by
  decide +kernel

theorem parts_computed :
    power 128 minimal 0xade264592ad1f79934f1b2f2f3650111 2 3 =
      0x526e8bee42977eca673bbdfd15f89bd1 ∧
    power 128 minimal 0x294e6d4e1a2384c0c34aaed3de299568 4 15 =
      0x8fa873f28d07654478a77107ff479c3e ∧
    power 128 minimal 0x93e25ba23b00d143bfcf44af13674cbe 8 255 =
      0xbc186881156e5abfa30271a63dcac032 ∧
    power 128 minimal 0x735fc0a9f6a2fc5d03650e32a7b373c5 16 65535 =
      0xa58bddd9944ee2b7df0b43e31645a64f ∧
    power 128 minimal 0xb0b335fa727ccacf228e6fad27aa3597 32 (2 ^ 32 - 1) =
      0x3426f1b492b018b52d4cec5473b4e6c5 ∧
    power 128 minimal 0x3426f1b492b018b52d4cec5473b4e6c5 23 6700417 =
      0x3213cb85f87d68058cedd468d4a46f5b ∧
    power 128 minimal 0x3426f1b492b018b52d4cec5473b4e6c5 10 641 =
      0xad2134ef78a77c8ae88cb6e16c4982ef ∧
    power 128 minimal 2 64 (2 ^ 64 - 1) = 0xec071c337cc1b0d470bd31828da21d65 ∧
    power 128 minimal 0xec071c337cc1b0d470bd31828da21d65 46 67280421310721 =
      0x7848c1ab8d0385375e897c2682e2beca ∧
    power 128 minimal 0xec071c337cc1b0d470bd31828da21d65 19 274177 =
      0xf71b96aaf53a369d2a1bdc8b32848f81 := by
  decide +kernel

/-- Inverses of these powers less one, beside the powers. -/
def inverses : List (Nat × Nat) :=
  [(0xff8cefb76846895353ca0f0fe69d9ac1, 0xff8cefb76846895353ca0f0fe69d9ac1),
    (0x44746645e1e994f5f0fe77cc421dfaaa, 0x526e8bee42977eca673bbdfd15f89bd1),
    (0x32c47704c6cdf7931acf2a818a19f62d, 0x8fa873f28d07654478a77107ff479c3e),
    (0x96f288cba5870497fd983bf5d14bdbeb, 0xbc186881156e5abfa30271a63dcac032),
    (0xa7e437605ed5e3ae3e409dba24fc1dcd, 0x3213cb85f87d68058cedd468d4a46f5b),
    (0xecb57a9ef6f5a6fff4387293b32f3b0c, 0xa58bddd9944ee2b7df0b43e31645a64f),
    (0xe9e260cf9faf324aeb4d0d5da638cf50, 0x7848c1ab8d0385375e897c2682e2beca),
    (0x14ca8334099b25f5a6585d516b1fd6f1, 0xad2134ef78a77c8ae88cb6e16c4982ef),
    (0x139bd4d8ba1f6134c128219c7d36e79d, 0xf71b96aaf53a369d2a1bdc8b32848f81)]

theorem inverses_computed : inverses.all (fun c =>
    decide (c.1 < 2 ^ 128) && product 128 minimal c.1 128 (c.2 ^^^ 1) == 1) = true := by
  decide +kernel

theorem whole_period : advance ^ period = 1 := by
  obtain ⟨six, five, four, three, two, one, zero⟩ := powers_computed
  have after_six := raised (power_of_two (by decide)) 65 (2 ^ 64 + 1) (by decide) rfl six
  have after_five := raised after_six 33 (2 ^ 32 + 1) (by decide) rfl five
  have after_four := raised after_five 17 65537 (by decide) rfl four
  have after_three := raised after_four 9 257 (by decide) rfl three
  have after_two := raised after_three 5 17 (by decide) rfl two
  have after_one := raised after_two 3 5 (by decide) rfl one
  have whole : PowerOf advance 128 1 period := raised after_one 2 3 (by decide) rfl zero
  rw [← whole.equal, value_one]

/-- No power by a largest divisor fixes anything but zero. -/
theorem parts_invertible (p : Nat) (member : p ∈ factors) :
    ∃ d : AddMonoid.End State, d * (advance ^ (period / p) + 1) = 1 := by
  obtain ⟨six, five, four, three, two, one, _⟩ := powers_computed
  obtain ⟨part_5, part_17, part_257, part_65537, fifth, part_641, part_6700417, sixth,
    part_274177, part_last⟩ := parts_computed
  have start : PowerOf advance 128 2 1 := power_of_two (by decide)
  have after_six := raised start 65 (2 ^ 64 + 1) (by decide) rfl six
  have after_five := raised after_six 33 (2 ^ 32 + 1) (by decide) rfl five
  have after_four := raised after_five 17 65537 (by decide) rfl four
  have after_three := raised after_four 9 257 (by decide) rfl three
  have after_two := raised after_three 5 17 (by decide) rfl two
  have no_fifth := raised after_six 32 (2 ^ 32 - 1) (by decide) rfl fifth
  have no_sixth := raised start 64 (2 ^ 64 - 1) (by decide) rfl sixth
  have inverse : ∀ c ∈ inverses, ∀ m, PowerOf advance 128 c.2 m →
      ∃ d : AddMonoid.End State, d * (advance ^ m + 1) = 1 := by
    intro c listed m known
    have checked := List.all_eq_true.mp inverses_computed c listed
    simp only [Bool.and_eq_true, decide_eq_true_eq, beq_iff_eq] at checked
    exact known.inverse minimal_root (by decide) c.1 checked.1 checked.2
  simp only [inverses, List.forall_mem_cons] at inverse
  simp only [factors, List.mem_cons, List.not_mem_nil, or_false] at member
  obtain ⟨by_3, by_5, by_17, by_257, by_641, by_65537, by_274177, by_6700417, by_last, _⟩ :=
    inverse
  rcases member with rfl | rfl | rfl | rfl | rfl | rfl | rfl | rfl | rfl
  · exact by_3 _ (raised after_two 3 5 (by decide) (by decide) one)
  · exact by_5 _ (raised after_two 2 3 (by decide) (by decide) part_5)
  · exact by_17 _ (raised after_three 4 15 (by decide) (by decide) part_17)
  · exact by_257 _ (raised after_four 8 255 (by decide) (by decide) part_257)
  · exact by_641 _ (raised no_fifth 23 6700417 (by decide) (by decide) part_641)
  · exact by_65537 _ (raised after_five 16 65535 (by decide) (by decide) part_65537)
  · exact by_274177 _ (raised no_sixth 46 67280421310721 (by decide) (by decide) part_274177)
  · exact by_6700417 _ (raised no_fifth 10 641 (by decide) (by decide) part_6700417)
  · exact by_last _ (raised no_sixth 19 274177 (by decide) (by decide) part_last)
end Powers

/-! What a caller draws. -/
section Draws
variable {s : State}

theorem minimal_period (s : State) (other : s ≠ 0) :
    Function.minimalPeriod (fun s => (xoroshiroNext s).2) s = period :=
  period_of_powers add_self_state advance period whole_period
    (fun p prime divides => parts_invertible p (factor_listed p prime divides)) s other

theorem after_zero (n : Nat) : after n 0 = 0 := by
  rw [after_power, map_zero]

theorem after_add (n m : Nat) (s : State) : after (n + m) s = after n (after m s) :=
  Function.iterate_add_apply _ n m s

theorem after_eq_self (other : s ≠ 0) (n : Nat) : after n s = s ↔ period ∣ n := by
  rw [← minimal_period s other]
  exact Function.isPeriodicPt_iff_minimalPeriod_dvd

theorem after_inj (other : s ≠ 0) {n m : Nat} (first : n < period) (second : m < period) :
    after n s = after m s ↔ n = m := by
  rw [← minimal_period s other] at first second
  exact Function.iterate_eq_iterate_iff_of_lt_minimalPeriod first second

theorem after_ne_zero (other : s ≠ 0) (n : Nat) : after n s ≠ 0 := by
  intro nothing
  -- after the rest of a round the draws are back at the seed
  have rest : n * (period - 1) + n = period * n := by
    unfold period
    omega
  have round : after (n * (period - 1) + n) s = s :=
    (after_eq_self other _).mpr ⟨n, rest⟩
  rw [after_add, nothing, after_zero] at round
  exact other round.symm

/-- The two words of a state. -/
def wordsEquiv : State ≃ Fin (2 ^ 64) × Fin (2 ^ 64) where
  toFun s := (s.s0.toFin, s.s1.toFin)
  invFun w := { s0 := UInt64.ofFin w.1, s1 := UInt64.ofFin w.2 }
  left_inv s := State.ext (UInt64.ofFin_toFin s.s0) (UInt64.ofFin_toFin s.s1)
  right_inv w := Prod.ext (UInt64.toFin_ofFin w.1) (UInt64.toFin_ofFin w.2)

theorem card_word : Nat.card UInt64 = 2 ^ 64 := by
  have same : UInt64 ≃ Fin (2 ^ 64) :=
    ⟨UInt64.toFin, UInt64.ofFin, UInt64.ofFin_toFin, UInt64.toFin_ofFin⟩
  rw [Nat.card_congr same, Nat.card_fin]

instance finiteState : Finite State := Finite.of_equiv _ wordsEquiv.symm

instance finiteWord : Finite UInt64 :=
  Nat.finite_of_card_ne_zero (by rw [card_word]; decide)

theorem card_state : Nat.card State = 2 ^ 128 := by
  rw [Nat.card_congr wordsEquiv, Nat.card_prod, Nat.card_fin]
  decide

theorem card_other {Value : Type} [Finite Value] (one : Value) :
    Nat.card { value : Value // value ≠ one } + 1 = Nat.card Value := by
  classical
  rw [← Finite.card_option]
  exact Nat.card_congr (Equiv.optionSubtypeNe one)

/-- The draws of the first round, with the states they start from. -/
def draws (other : s ≠ 0) (n : Fin period) : { t : State // t ≠ 0 } :=
  ⟨after n s, after_ne_zero other n⟩

theorem draws_bijective (other : s ≠ 0) : Function.Bijective (draws other) := by
  refine (Nat.bijective_iff_injective_and_card _).mpr ⟨fun n m same => ?_, ?_⟩
  · exact Fin.ext ((after_inj other n.isLt m.isLt).mp (Subtype.ext_iff.mp same))
  · have states := card_other (0 : State)
    rw [card_state] at states
    rw [Nat.card_fin]
    unfold period
    omega

/-- Every seed but zero goes through all states but zero, and is back no sooner. -/
theorem one_cycle (s : State) (seeded : s ≠ { s0 := 0, s1 := 0 }) :
    (∀ n, after n s = s ↔ period ∣ n) ∧
      ∀ t : State, t ≠ { s0 := 0, s1 := 0 } ↔ ∃ n < period, after n s = t := by
  refine ⟨after_eq_self seeded, fun t => ⟨fun other => ?_, ?_⟩⟩
  · obtain ⟨n, found⟩ := (draws_bijective seeded).surjective ⟨t, other⟩
    exact ⟨n, n.isLt, Subtype.ext_iff.mp found⟩
  · rintro ⟨n, _, rfl⟩
    exact after_ne_zero seeded n

theorem one_cycle_seed_one : (∀ n, after n { s0 := 1, s1 := 0 } = { s0 := 1, s1 := 0 } ↔
    period ∣ n) ∧ ∀ t : State, t ≠ { s0 := 0, s1 := 0 } ↔
      ∃ n < period, after n { s0 := 1, s1 := 0 } = t :=
  one_cycle { s0 := 1, s1 := 0 } (by decide)

theorem second_word {x y r : UInt64} (sum : x + y = r) : r - x = y := by
  rw [← sum, UInt64.add_comm, UInt64.add_sub_cancel]

/-- The states with one result, by their first words. -/
def resultEquiv (r : UInt64) :
    { t : { t : State // t ≠ 0 } // t.1.s0 + t.1.s1 = r } ≃
      { x : UInt64 // ¬ (x = 0 ∧ r = 0) } where
  toFun t := ⟨t.1.1.s0, fun nothing => t.1.2 (State.ext nothing.1 (by
    rw [← second_word t.2, nothing.1, nothing.2]
    rfl))⟩
  invFun x := ⟨⟨{ s0 := x.1, s1 := r - x.1 }, fun zero => x.2 (by
    have first : x.1 = 0 := congrArg State.s0 zero
    have second : r - x.1 = 0 := congrArg State.s1 zero
    rw [first, UInt64.sub_zero] at second
    exact ⟨first, second⟩)⟩, by
      show x.1 + (r - x.1) = r
      rw [UInt64.add_comm, UInt64.sub_add_cancel]⟩
  left_inv t := Subtype.ext (Subtype.ext (State.ext rfl (second_word t.2)))
  right_inv x := rfl

/-- In a round every 64-bit result is drawn `2 ^ 64` times, and zero once less. -/
theorem results_even (s : State) (seeded : s ≠ { s0 := 0, s1 := 0 }) (r : UInt64) :
    Nat.card { n : Fin period // (sbRandUniformUint64 (after n s)).1 = r } =
      if r = 0 then 2 ^ 64 - 1 else 2 ^ 64 := by
  have first : { n : Fin period // (sbRandUniformUint64 (after n s)).1 = r } ≃
      { t : { t : State // t ≠ 0 } // t.1.s0 + t.1.s1 = r } :=
    (Equiv.ofBijective _ (draws_bijective seeded)).subtypeEquiv fun n => Iff.rfl
  rw [Nat.card_congr (first.trans (resultEquiv r))]
  by_cases zero : r = 0
  · have others := card_other (0 : UInt64)
    have same : { x : UInt64 // ¬ (x = 0 ∧ r = 0) } ≃ { x : UInt64 // x ≠ 0 } :=
      Equiv.subtypeEquivRight fun x => by simp [zero]
    rw [card_word] at others
    rw [if_pos zero, Nat.card_congr same]
    omega
  · have all : { x : UInt64 // ¬ (x = 0 ∧ r = 0) } ≃ UInt64 :=
      Equiv.subtypeUnivEquiv fun x both => zero both.2
    rw [if_neg zero, Nat.card_congr all, card_word]

theorem results_even_seed_one : Nat.card { n : Fin period //
    (sbRandUniformUint64 (after n { s0 := 1, s1 := 0 })).1 = 7 } = 2 ^ 64 :=
  results_even { s0 := 1, s1 := 0 } (by decide) 7

theorem after_mod (other : s ≠ 0) (n : Nat) : after (n % period) s = after n s := by
  rw [← minimal_period s other]
  exact Function.iterate_mod_minimalPeriod_eq

theorem after_eq_iff (other : s ≠ 0) (n m : Nat) :
    after n s = after m s ↔ n % period = m % period := by
  have some_ : 0 < period := by decide
  rw [← after_mod other n, ← after_mod other m,
    after_inj other (Nat.mod_lt n some_) (Nat.mod_lt m some_)]

theorem jumps_are_draws (i : Nat) (s : State) : xoroshiroJump^[i] s = after (2 ^ 64 * i) s := by
  induction i with
  | zero => rfl
  | succ i ih =>
      rw [Function.iterate_succ_apply', ih, jump_is_draws, ← after_add, Nat.mul_succ,
        Nat.add_comm]

theorem round_mod {n : Nat} (within : n ≤ period) :
    (n < period ∧ n % period = n) ∨ (n = period ∧ n % period = 0) := by
  rcases Nat.lt_or_eq_of_le within with below | last
  · exact .inl ⟨below, Nat.mod_eq_of_lt below⟩
  · exact .inr ⟨last, by rw [last, Nat.mod_self]⟩

/-- The streams that jumps lead to share no state, but for the last state of the last of
`2 ^ 64` streams of `2 ^ 64` draws, which is the seed again. -/
theorem streams_overlap (s : State) (seeded : s ≠ { s0 := 0, s1 := 0 }) (i j a b : Nat)
    (streams : i < 2 ^ 64 ∧ j < 2 ^ 64) (draws : a < 2 ^ 64 ∧ b < 2 ^ 64) :
    after a (xoroshiroJump^[i] s) = after b (xoroshiroJump^[j] s) ↔
      (i = j ∧ a = b) ∨
        (i = 0 ∧ a = 0 ∧ j = 2 ^ 64 - 1 ∧ b = 2 ^ 64 - 1) ∨
        (j = 0 ∧ b = 0 ∧ i = 2 ^ 64 - 1 ∧ a = 2 ^ 64 - 1) := by
  rw [jumps_are_draws, jumps_are_draws, ← after_add, ← after_add, after_eq_iff seeded]
  have first := round_mod (n := a + 2 ^ 64 * i) (by unfold period; omega)
  have second := round_mod (n := b + 2 ^ 64 * j) (by unfold period; omega)
  unfold period at *
  rcases first with ⟨_, first⟩ | ⟨_, first⟩ <;> rcases second with ⟨_, second⟩ | ⟨_, second⟩ <;>
    rw [first, second] <;> omega

theorem streams_overlap_ends : after 0 (xoroshiroJump^[0] { s0 := 1, s1 := 0 }) =
    after (2 ^ 64 - 1) (xoroshiroJump^[2 ^ 64 - 1] { s0 := 1, s1 := 0 }) :=
  (streams_overlap { s0 := 1, s1 := 0 } (by decide) 0 (2 ^ 64 - 1) 0 (2 ^ 64 - 1)
    (by decide) (by decide)).mpr (.inr (.inl ⟨rfl, rfl, rfl, rfl⟩))

theorem seed_word {a b : UInt64} (high : a.toNat < 2 ^ 31) (low : b.toNat < 2 ^ 31) :
    (a <<< 32) ||| (b &&& 0xFFFFFFFF) = 0 ↔ a = 0 ∧ b = 0 := by
  have shifted : a.toNat <<< 32 % 2 ^ 64 = a.toNat * 2 ^ 32 := by
    rw [Nat.shiftLeft_eq]
    omega
  have kept : b.toNat &&& (2 ^ 32 - 1) = b.toNat := by
    rw [Nat.and_two_pow_sub_one_eq_mod]
    omega
  rw [← UInt64.toNat_inj, ← UInt64.toNat_inj, ← UInt64.toNat_inj, UInt64.toNat_or,
    UInt64.toNat_and, UInt64.toNat_shiftLeft, show (32 : UInt64).toNat % 64 = 32 from rfl,
    show (0xFFFFFFFF : UInt64).toNat = 2 ^ 32 - 1 from rfl, shifted, kept, UInt64.toNat_zero,
    Nat.or_eq_zero_iff]
  omega

/-- `random` returns less than `2 ^ 31`. A thread draws zeros for ever when its four seeds
are all zero, and only then. -/
theorem thread_stuck_iff (a b c d : UInt64) (seeds : a.toNat < 2 ^ 31 ∧ b.toNat < 2 ^ 31)
    (more : c.toNat < 2 ^ 31 ∧ d.toNat < 2 ^ 31) :
    (∀ n, (sbRandUniformUint64 (after n (sbRandThreadInit a b c d))).1 = 0) ↔
      a = 0 ∧ b = 0 ∧ c = 0 ∧ d = 0 := by
  have nothing : sbRandThreadInit a b c d = 0 ↔ (a = 0 ∧ b = 0) ∧ c = 0 ∧ d = 0 := by
    rw [State.ext_iff]
    exact and_congr (seed_word seeds.1 seeds.2) (seed_word more.1 more.2)
  rw [← and_assoc, ← nothing]
  constructor
  · intro zeros
    by_contra other
    obtain ⟨n, found⟩ :=
      (draws_bijective other).surjective ⟨{ s0 := 1, s1 := 0 }, by decide⟩
    have drawn := zeros n
    rw [show after n (sbRandThreadInit a b c d) = { s0 := 1, s1 := 0 } from
      Subtype.ext_iff.mp found] at drawn
    exact absurd drawn (by decide)
  · intro zero n
    rw [zero, after_zero]
    rfl

theorem thread_not_stuck :
    ¬ ∀ n, (sbRandUniformUint64 (after n (sbRandThreadInit 0 1 0 0))).1 = 0 := fun zeros =>
  absurd ((thread_stuck_iff 0 1 0 0 (by decide) (by decide)).mp zeros).2.1 (by decide)
end Draws
end PteSysbench.XoroshiroPeriod
