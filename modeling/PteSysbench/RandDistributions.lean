import PteSysbench.ArgumentParser
import PteSysbench.OptionValues
import PteSysbench.SbRand
import Mathlib.Algebra.Order.Floor.Semifield
import Mathlib.Data.Rat.Floor
import Mathlib.Tactic.Linarith
import Mathlib.Tactic.Positivity
import Mathlib.Tactic.Ring

/-!
The distributions of sb_rand.c under the options that `sb_rand_init` reads, with a
`double` read as an exact rational, or as `none` where it is divided by zero.
-/

namespace PteSysbench.RandDistributions

open ActionSystem ArgumentParser OptionRegistry OptionValues SbRand

def guardedDiv (x y : ℚ) : Option ℚ := if y = 0 then none else some (x / y)

/-- The functions of libm. -/
structure Libm where
  log : ℚ → ℚ
  log1p : ℚ → ℚ
  exp : ℚ → ℚ
  expm1 : ℚ → ℚ

/-- The conversion of a `double` to `uint32_t`: what does not fit gives some number. -/
structure Conversion where
  toUint32 : ℚ → Nat
  bounded : ∀ x, toUint32 x < 2 ^ 32
  truncates : ∀ x, -1 < x → x < 2 ^ 32 → toUint32 x = ⌊x⌋₊

def toUnsigned (n : Int) : Nat := (n % 2 ^ 32).toNat

/-! The helpers of the Zipf sampler. -/
section Helpers

def helper1 (m : Libm) (x : ℚ) : Option ℚ :=
  if 1e-8 < |x| then guardedDiv (m.log1p x) x
  else some (1 - x * (0.5 - x * (0.33333333333333333 - 0.25 * x)))

def helper2 (m : Libm) (x : ℚ) : Option ℚ :=
  if 1e-8 < |x| then guardedDiv (m.expm1 x) x
  else some (1 + x * 0.5 * (1 + x * 0.33333333333333333 * (1 + 0.25 * x)))

def hIntegral (m : Libm) (x e : ℚ) : Option ℚ :=
  (helper2 m ((1 - e) * m.log x)).map (· * m.log x)

def h (m : Libm) (x e : ℚ) : ℚ := m.exp (-e * m.log x)

def hIntegralInverse (m : Libm) (x e : ℚ) : Option ℚ :=
  let t := if x * (1 - e) < -1 then -1 else x * (1 - e)
  (helper1 m t).map fun y => m.exp (y * x)

end Helpers

inductive RandDist where
  | uniform
  | gaussian
  | pareto
  | zipfian
  deriving DecidableEq, Repr

/-- The variables that `sb_rand_init` sets. -/
structure RandState where
  randSeed : Int
  randType : RandDist
  randIter : Nat
  randIterMult : Option ℚ
  randPct : Nat
  randPctMult : ℚ
  randPct2Mult : ℚ
  randRes : Nat
  randResMult : Option ℚ
  paretoH : ℚ
  paretoPower : Option ℚ
  zipfExp : ℚ
  zipfS : Option ℚ
  zipfHIntegralX1 : Option ℚ

inductive InitError where
  | invalidValue (failure : InvalidValue)
  | nullType
  | invalidType (s : Text)
  | negativeExponent
  deriving DecidableEq

/-- What is printed; a comparison with NULL ends the process without a word. -/
def InitError.message : InitError → Option Text
  | .invalidValue failure => some failure.message
  | .nullType => none
  | .invalidType s => some (text "Invalid random numbers distribution: " ++ s ++ text ".")
  | .negativeExponent => some (text "--rand-zipfian-exp must be >= 0")

def randDist (s : Text) : Except InitError RandDist :=
  if s = text "uniform" then .ok .uniform
  else if s = text "gaussian" then .ok .gaussian
  else if s = text "pareto" then .ok .pareto
  else if s = text "zipfian" then .ok .zipfian
  else .error (.invalidType s)

def readIntOption (options : Registry) (name : String) : Except InitError Int :=
  (sbGetValueInt options (text name)).mapError .invalidValue

def sbRandInit (m : Libm) (strtod : Text → ℚ) (options : Registry) :
    Except InitError RandState := do
  let randSeed ← readIntOption options "rand-seed"
  let s ← (sbGetValueString options (text "rand-type")).elim (.error .nullType) .ok
  let randType ← randDist s
  let iter ← readIntOption options "rand-spec-iter"
  let pct ← readIntOption options "rand-spec-pct"
  let res ← readIntOption options "rand-spec-res"
  let paretoH := sbGetValueDouble strtod options (text "rand-pareto-h")
  let zipfExp := sbGetValueDouble strtod options (text "rand-zipfian-exp")
  if zipfExp < 0 then .error .negativeExponent
  else
    .ok {
      randSeed, randType
      randIter := toUnsigned iter
      randIterMult := guardedDiv 1 (toUnsigned iter)
      randPct := toUnsigned pct
      randPctMult := toUnsigned pct / 100
      randPct2Mult := toUnsigned pct / 200
      randRes := toUnsigned res
      randResMult := guardedDiv 100 (100 - toUnsigned res)
      paretoH
      paretoPower := guardedDiv (m.log paretoH) (m.log (1 - paretoH))
      zipfExp
      zipfS := do
        let y ← hIntegral m 2.5 zipfExp
        let z ← hIntegralInverse m (y - h m 2 zipfExp) zipfExp
        some (2 - z)
      zipfHIntegralX1 := (hIntegral m 1.5 zipfExp).map (· - 1) }

/-! The samplers. -/
section Samplers

/-- `b - a + 1` in `uint32_t`. -/
def width (a b : Nat) : Nat := (b + 2 ^ 32 - a + 1) % 2 ^ 32

def uniformDouble (x : UInt64) : ℚ := sbRandUniformDouble x / 2 ^ 52

def gaussianSum (t : ℚ) (draws : Nat → UInt64) : Nat → ℚ
  | 0 => 0
  | i + 1 => gaussianSum t draws i + uniformDouble (draws i) * t

def sbRandGaussian (conv : Conversion) (rand : RandState) (draws : Nat → UInt64) (a b : Nat) :
    Option Nat :=
  rand.randIterMult.map fun mult =>
    (a + conv.toUint32 (gaussianSum (width a b) draws rand.randIter * mult)) % 2 ^ 32

/-- What the loop has come to after some draws. -/
inductive Outcome where
  | returned (k : Nat)
  | running
  | dividedByZero
  deriving DecidableEq, Repr

def limit (n k : Nat) : Nat := if k < 1 then 1 else if n < k then n else k

def zipfianLoop (m : Libm) (conv : Conversion) (n : Nat) (e s x1 hn : ℚ) : List UInt64 → Outcome
  | [] => .running
  | draw :: rest =>
      let u := hn + uniformDouble draw * (x1 - hn)
      match hIntegralInverse m u e with
      | none => .dividedByZero
      | some x =>
          let k := limit n (conv.toUint32 (x + 0.5))
          if k - x ≤ s then .returned k
          else
            match hIntegral m (k + 0.5) e with
            | none => .dividedByZero
            | some y =>
                if y - h m k e ≤ u then .returned k else zipfianLoop m conv n e s x1 hn rest

def sbRandZipfianInt (m : Libm) (conv : Conversion) (n : Nat) (e s x1 : ℚ) (draws : List UInt64) :
    Outcome :=
  match hIntegral m (n + 0.5) e with
  | none => .dividedByZero
  | some hn => zipfianLoop m conv n e s x1 hn draws

def sbRandZipfian (m : Libm) (conv : Conversion) (rand : RandState) (draws : List UInt64)
    (a b : Nat) : Outcome :=
  match rand.zipfS, rand.zipfHIntegralX1 with
  | some s, some x1 =>
      match sbRandZipfianInt m conv (width a b) rand.zipfExp s x1 draws with
      | .returned k => .returned ((a + k + 2 ^ 32 - 1) % 2 ^ 32)
      | other => other
  | _, _ => .dividedByZero

end Samplers

/-- The arguments of a draw. -/
structure Bounds where
  a : Nat
  b : Nat
  ordered : a ≤ b
  fits : b < 2 ^ 32

def Bounds.Holds (bounds : Bounds) (c : Nat) : Prop := bounds.a ≤ c ∧ c ≤ bounds.b

/-- All of `uint32_t`, whose width wraps to 0. -/
def Bounds.Full (bounds : Bounds) : Prop := bounds.a = 0 ∧ bounds.b = 2 ^ 32 - 1

/-- Every draw between the bounds, and nothing divided by zero. -/
structure DrawsKept (m : Libm) (conv : Conversion) (rand : RandState) (bounds : Bounds) : Prop where
  iterations : rand.randIterMult ≠ none
  values : rand.randResMult ≠ none
  pareto : rand.paretoPower ≠ none
  zipf : rand.zipfS ≠ none ∧ rand.zipfHIntegralX1 ≠ none
  uniform : ∀ x, bounds.Holds (sbRandUniform x bounds.a bounds.b)
  gaussian : ∀ draws, ∃ c, sbRandGaussian conv rand draws bounds.a bounds.b = some c ∧
    bounds.Holds c
  zipfian : ∀ draws, sbRandZipfian m conv rand draws bounds.a bounds.b ≠ .dividedByZero ∧
    ∀ c, sbRandZipfian m conv rand draws bounds.a bounds.b = .returned c → bounds.Holds c
  reached : ∀ c, bounds.Holds c → ∃ x, sbRandUniform x bounds.a bounds.b = c

/-- The options that no divisor of `sb_rand_init` makes zero. -/
structure Divisors (m : Libm) (strtod : Text → ℚ) (options : Registry) : Prop where
  iterations : sbGetValueInt options (text "rand-spec-iter") ≠ .ok 0
  values : sbGetValueInt options (text "rand-spec-res") ≠ .ok 100
  pareto : m.log (1 - sbGetValueDouble strtod options (text "rand-pareto-h")) ≠ 0

/-! The width of the bounds. -/
section Widths
variable (bounds : Bounds)

theorem width_full (full : bounds.Full) : width bounds.a bounds.b = 0 := by
  unfold Bounds.Full at full
  unfold width
  omega

theorem width_partly (partly : ¬ bounds.Full) :
    width bounds.a bounds.b = bounds.b - bounds.a + 1 := by
  have ordered := bounds.ordered
  have fits := bounds.fits
  unfold width
  unfold Bounds.Full at partly
  omega

/-- A width that wrapped holds no value of its own, but then every number is inside. -/
theorem offset_inside (offset : Nat) (below : offset < width bounds.a bounds.b ∨ offset = 0) :
    bounds.Holds ((bounds.a + offset) % 2 ^ 32) := by
  have ordered := bounds.ordered
  have fits := bounds.fits
  unfold Bounds.Holds
  by_cases full : bounds.Full
  · unfold Bounds.Full at full
    omega
  · rw [width_partly bounds full] at below
    omega

theorem uniform_inside (x : UInt64) : bounds.Holds (sbRandUniform x bounds.a bounds.b) := by
  have draw := scaled_draw_le x (width bounds.a bounds.b)
  exact offset_inside bounds _ (by unfold width at draw ⊢; omega)

/-- Scaled by at most `2^52`, the draws leave no number out. -/
theorem scaled_draw_reaches (width offset : Nat) (below : offset < width)
    (narrow : width ≤ 2 ^ 52) : ∃ x, sbRandUniformDouble x * width / 2 ^ 52 = offset := by
  -- the first multiple of `width` from `offset * 2^52` on
  obtain ⟨k, first⟩ : ∃ k, k = (offset * 2 ^ 52 + (width - 1)) / width := ⟨_, rfl⟩
  have divided := Nat.div_add_mod (offset * 2 ^ 52 + (width - 1)) width
  have remainder := Nat.mod_lt (offset * 2 ^ 52 + (width - 1)) (by omega : 0 < width)
  rw [← first] at divided
  have above : offset * 2 ^ 52 ≤ k * width := by rw [Nat.mul_comm k]; omega
  have before : k * width < offset * 2 ^ 52 + 2 ^ 52 := by rw [Nat.mul_comm k]; omega
  have fits : k < 2 ^ 52 := by
    have top : (offset + 1) * 2 ^ 52 ≤ width * 2 ^ 52 := Nat.mul_le_mul_right _ below
    by_contra large
    have much : 2 ^ 52 * width ≤ k * width := Nat.mul_le_mul_right width (by omega)
    rw [Nat.mul_comm] at much
    omega
  refine ⟨.ofNat (k * 2 ^ 12), ?_⟩
  have drawn : sbRandUniformDouble (.ofNat (k * 2 ^ 12)) = k := by
    rw [sbRandUniformDouble, UInt64.toNat_ofNat', Nat.mod_eq_of_lt (by omega)]
    omega
  rw [drawn]
  omega

theorem uniform_reaches_iff :
    (∀ c, bounds.Holds c → ∃ x, sbRandUniform x bounds.a bounds.b = c) ↔ ¬ bounds.Full := by
  constructor
  · intro reached full
    have wrapped := width_full bounds full
    obtain ⟨x, drawn⟩ := reached 1 (by unfold Bounds.Holds; unfold Bounds.Full at full; omega)
    unfold width at wrapped
    rw [sbRandUniform, wrapped, full.1] at drawn
    simp at drawn
  · intro partly c inside
    obtain ⟨above, below⟩ := inside
    have fits := bounds.fits
    have exact := width_partly bounds partly
    obtain ⟨x, drawn⟩ := scaled_draw_reaches (width bounds.a bounds.b) (c - bounds.a)
      (by omega) (by omega)
    refine ⟨x, ?_⟩
    unfold width at drawn
    rw [sbRandUniform, drawn]
    omega

end Widths

/-! The Gaussian sampler. -/
section Gaussian

theorem uniform_double_range (x : UInt64) : 0 ≤ uniformDouble x ∧ uniformDouble x < 1 := by
  have below : (sbRandUniformDouble x : ℚ) < 2 ^ 52 := by exact_mod_cast uniform_double_lt x
  unfold uniformDouble
  constructor
  · positivity
  · rw [div_lt_one (by positivity)]
    exact below

/-- `sb_rand_uniform` is the conversion of the sum that the source writes. -/
theorem uniform_truncates (conv : Conversion) (bounds : Bounds) (x : UInt64) :
    sbRandUniform x bounds.a bounds.b =
      conv.toUint32 (bounds.a + uniformDouble x * width bounds.a bounds.b) := by
  have draw := scaled_draw_le x (width bounds.a bounds.b)
  have fits := bounds.fits
  have ordered := bounds.ordered
  have quotient : (bounds.a + uniformDouble x * width bounds.a bounds.b : ℚ) =
      (bounds.a * 2 ^ 52 + sbRandUniformDouble x * width bounds.a bounds.b : Nat) /
        (2 ^ 52 : Nat) := by
    unfold uniformDouble
    push_cast
    ring
  have floor : ⌊(bounds.a + uniformDouble x * width bounds.a bounds.b : ℚ)⌋₊ =
      bounds.a + sbRandUniformDouble x * width bounds.a bounds.b / 2 ^ 52 := by
    rw [quotient, Nat.floor_div_eq_div]
    omega
  -- the full range has a width of 0, and any other one stays within its bounds
  have below : bounds.a + sbRandUniformDouble x * width bounds.a bounds.b / 2 ^ 52 < 2 ^ 32 := by
    by_cases full : bounds.Full
    · rw [width_full bounds full]
      omega
    · rw [width_partly bounds full] at draw ⊢
      omega
  have nonneg : (0 : ℚ) ≤ bounds.a + uniformDouble x * width bounds.a bounds.b := by
    have low := (uniform_double_range x).1
    positivity
  have high : (bounds.a + uniformDouble x * width bounds.a bounds.b : ℚ) < 2 ^ 32 := by
    rw [← floor] at below
    exact_mod_cast (Nat.floor_lt nonneg).mp below
  rw [conv.truncates _ (by linarith only [nonneg]) high, floor]
  exact Nat.mod_eq_of_lt below

theorem gaussian_sum_range (t : ℚ) (draws : Nat → UInt64) (count : Nat) (nonneg : 0 ≤ t) :
    0 ≤ gaussianSum t draws count ∧ gaussianSum t draws count ≤ count * t := by
  induction count with
  | zero => simp [gaussianSum]
  | succ i ih =>
      obtain ⟨low, high⟩ := uniform_double_range (draws i)
      have term : uniformDouble (draws i) * t ≤ t := mul_le_of_le_one_left nonneg high.le
      have termNonneg := mul_nonneg low nonneg
      rw [gaussianSum]
      push_cast
      exact ⟨by linarith only [ih.1, termNonneg], by linarith only [ih.2, term]⟩

/-- With one draw at least, the sum stays below its bound. -/
theorem gaussian_sum_lt (t : ℚ) (draws : Nat → UInt64) (count : Nat) (pos : 0 < t)
    (drawn : 0 < count) : gaussianSum t draws count < count * t := by
  cases count with
  | zero => exact absurd drawn (by simp)
  | succ i =>
      have earlier := (gaussian_sum_range t draws i pos.le).2
      have term := mul_lt_of_lt_one_left pos (uniform_double_range (draws i)).2
      rw [gaussianSum]
      push_cast
      linarith only [earlier, term]

theorem gaussian_offset (conv : Conversion) (draws : Nat → UInt64) (bounds : Bounds) (count : Nat)
    (drawn : 0 < count) :
    conv.toUint32 (gaussianSum (width bounds.a bounds.b) draws count * (1 / count)) <
        width bounds.a bounds.b ∨
      conv.toUint32 (gaussianSum (width bounds.a bounds.b) draws count * (1 / count)) = 0 := by
  have countPos : (0 : ℚ) < count := by exact_mod_cast drawn
  obtain ⟨low, high⟩ := gaussian_sum_range (width bounds.a bounds.b) draws count (by positivity)
  have widthFits : (width bounds.a bounds.b : ℚ) < 2 ^ 32 := by
    exact_mod_cast Nat.mod_lt _ (by decide)
  have mean : gaussianSum (width bounds.a bounds.b) draws count * (1 / count) =
      gaussianSum (width bounds.a bounds.b) draws count / count := by ring
  have meanLow : 0 ≤ gaussianSum (width bounds.a bounds.b) draws count / count := by positivity
  have meanHigh : gaussianSum (width bounds.a bounds.b) draws count / count ≤
      width bounds.a bounds.b := by
    rw [div_le_iff₀ countPos]
    linarith only [high]
  rw [mean, conv.truncates _ (by linarith only [meanLow]) (by linarith only [meanHigh, widthFits])]
  rcases Nat.eq_zero_or_pos (width bounds.a bounds.b) with wrapped | pos
  · right
    rw [wrapped] at meanHigh ⊢
    exact Nat.floor_eq_zero.mpr (by push_cast at meanHigh ⊢; linarith only [meanHigh])
  · left
    have posWidth : (0 : ℚ) < width bounds.a bounds.b := by exact_mod_cast pos
    rw [Nat.floor_lt meanLow, div_lt_iff₀ countPos]
    linarith only [gaussian_sum_lt _ draws count posWidth drawn]

theorem gaussian_inside (conv : Conversion) (rand : RandState) (bounds : Bounds)
    (draws : Nat → UInt64) (mult : rand.randIterMult = guardedDiv 1 rand.randIter)
    (drawn : rand.randIter ≠ 0) :
    ∃ c, sbRandGaussian conv rand draws bounds.a bounds.b = some c ∧ bounds.Holds c := by
  have nonzero : (rand.randIter : ℚ) ≠ 0 := by exact_mod_cast drawn
  rw [guardedDiv, if_neg nonzero] at mult
  have offset := gaussian_offset conv draws bounds rand.randIter (Nat.pos_of_ne_zero drawn)
  exact ⟨_, by rw [sbRandGaussian, mult, Option.map_some], offset_inside bounds _ offset⟩

end Gaussian

/-! The Zipf sampler. -/
section Zipfian
variable {m : Libm} {conv : Conversion}

theorem guarded_helper (y x : ℚ) (large : 1e-8 < |x|) : guardedDiv y x ≠ none := by
  have nonzero : x ≠ 0 := by
    rintro rfl
    norm_num at large
  simp [guardedDiv, nonzero]

theorem helper1_defined (m : Libm) (x : ℚ) : helper1 m x ≠ none := by
  unfold helper1
  split
  · rename_i large
    exact guarded_helper _ _ large
  · simp

theorem helper2_defined (m : Libm) (x : ℚ) : helper2 m x ≠ none := by
  unfold helper2
  split
  · rename_i large
    exact guarded_helper _ _ large
  · simp

theorem h_integral_defined (m : Libm) (x e : ℚ) : hIntegral m x e ≠ none := by
  rw [hIntegral, ne_eq, Option.map_eq_none_iff]
  exact helper2_defined m _

theorem h_integral_inverse_defined (m : Libm) (x e : ℚ) : hIntegralInverse m x e ≠ none := by
  rw [hIntegralInverse, ne_eq, Option.map_eq_none_iff]
  exact helper1_defined m _

theorem limit_range (n k : Nat) :
    limit n k = 0 ∧ n = 0 ∨ 1 ≤ limit n k ∧ (limit n k ≤ n ∨ n = 0) := by
  unfold limit
  split_ifs <;> omega

/-- Whatever the helpers compute, the loop divides by nothing and returns a limited number. -/
theorem zipfian_loop_limited (n : Nat) (e s x1 hn : ℚ) (draws : List UInt64) :
    zipfianLoop m conv n e s x1 hn draws = .running ∨
      ∃ k, zipfianLoop m conv n e s x1 hn draws = .returned (limit n k) := by
  induction draws with
  | nil => exact .inl rfl
  | cons draw rest ih =>
      obtain ⟨x, inverse⟩ := Option.ne_none_iff_exists'.mp
        (h_integral_inverse_defined m (hn + uniformDouble draw * (x1 - hn)) e)
      simp only [zipfianLoop, inverse]
      split
      · exact .inr ⟨_, rfl⟩
      · obtain ⟨y, integral⟩ := Option.ne_none_iff_exists'.mp
          (h_integral_defined m (limit n (conv.toUint32 (x + 0.5)) + 0.5) e)
        simp only [integral]
        split
        · exact .inr ⟨_, rfl⟩
        · exact ih

theorem zipfian_int_limited (m : Libm) (conv : Conversion) (n : Nat) (e s x1 : ℚ)
    (draws : List UInt64) :
    sbRandZipfianInt m conv n e s x1 draws = .running ∨
      ∃ k, sbRandZipfianInt m conv n e s x1 draws = .returned (limit n k) := by
  obtain ⟨hn, integral⟩ := Option.ne_none_iff_exists'.mp (h_integral_defined m (n + 0.5) e)
  simp only [sbRandZipfianInt, integral]
  exact zipfian_loop_limited n e s x1 hn draws

theorem zipfian_inside (rand : RandState) (bounds : Bounds) (draws : List UInt64)
    (zipf : rand.zipfS ≠ none ∧ rand.zipfHIntegralX1 ≠ none) :
    sbRandZipfian m conv rand draws bounds.a bounds.b ≠ .dividedByZero ∧
      ∀ c, sbRandZipfian m conv rand draws bounds.a bounds.b = .returned c → bounds.Holds c := by
  obtain ⟨s, hs⟩ := Option.ne_none_iff_exists'.mp zipf.1
  obtain ⟨x1, hx1⟩ := Option.ne_none_iff_exists'.mp zipf.2
  simp only [sbRandZipfian, hs, hx1]
  rcases zipfian_int_limited m conv (width bounds.a bounds.b) rand.zipfExp s x1 draws
    with running | ⟨k, returned⟩
  · simp [running]
  · simp only [returned, ne_eq, reduceCtorEq, not_false_eq_true, Outcome.returned.injEq, true_and]
    rintro c rfl
    have ordered := bounds.ordered
    have fits := bounds.fits
    have range := limit_range (width bounds.a bounds.b) k
    unfold Bounds.Holds
    by_cases full : bounds.Full
    · -- every `uint32_t` is inside
      unfold Bounds.Full at full
      omega
    · have exact := width_partly bounds full
      omega

end Zipfian

/-! What `sb_rand_init` leaves. -/
section Init
variable {m : Libm} {strtod : Text → ℚ} {options : Registry} {rand : RandState}

theorem guarded_div_defined (x y : ℚ) : guardedDiv x y ≠ none ↔ y ≠ 0 := by
  unfold guardedDiv
  split <;> simp_all

theorem int_option_read (name : String) (n : Int) (read : readIntOption options name = .ok n) :
    sbGetValueInt options (text name) = .ok n := by
  unfold readIntOption at read
  cases value : sbGetValueInt options (text name) with
  | error failure => simp [value, Except.mapError] at read
  | ok number => simpa [value, Except.mapError] using read

theorem rand_init_cases (accepted : sbRandInit m strtod options = .ok rand) :
    ∃ iter res, sbGetValueInt options (text "rand-spec-iter") = .ok iter ∧
      sbGetValueInt options (text "rand-spec-res") = .ok res ∧
      rand.randIter = toUnsigned iter ∧
      rand.randIterMult = guardedDiv 1 (toUnsigned iter) ∧
      rand.randResMult = guardedDiv 100 (100 - toUnsigned res) ∧
      rand.paretoPower =
        guardedDiv (m.log (sbGetValueDouble strtod options (text "rand-pareto-h")))
          (m.log (1 - sbGetValueDouble strtod options (text "rand-pareto-h"))) ∧
      rand.zipfS ≠ none ∧ rand.zipfHIntegralX1 ≠ none := by
  obtain ⟨_, _, accepted⟩ := bind_ok _ _ _ accepted
  obtain ⟨_, _, accepted⟩ := bind_ok _ _ _ accepted
  obtain ⟨_, _, accepted⟩ := bind_ok _ _ _ accepted
  obtain ⟨iter, readIter, accepted⟩ := bind_ok _ _ _ accepted
  obtain ⟨_, _, accepted⟩ := bind_ok _ _ _ accepted
  obtain ⟨res, readRes, accepted⟩ := bind_ok _ _ _ accepted
  simp only at accepted
  split at accepted
  · cases accepted
  · obtain rfl := Except.ok.inj accepted
    refine ⟨iter, res, int_option_read _ iter readIter, int_option_read _ res readRes, rfl, rfl,
      rfl, rfl, ?_, ?_⟩
    · obtain ⟨y, integral⟩ := Option.ne_none_iff_exists'.mp (h_integral_defined m 2.5
        (sbGetValueDouble strtod options (text "rand-zipfian-exp")))
      obtain ⟨z, inverse⟩ := Option.ne_none_iff_exists'.mp (h_integral_inverse_defined m
        (y - h m 2 (sbGetValueDouble strtod options (text "rand-zipfian-exp")))
        (sbGetValueDouble strtod options (text "rand-zipfian-exp")))
      simp [integral, inverse]
    · simpa using h_integral_defined m 1.5 _

/-- Readable numbers, a known type and an exponent from 0 on are all that it takes. -/
theorem rand_init_accepts (m : Libm) (strtod : Text → ℚ) (options : Registry) (s : Text)
    (seed : (sbGetValueInt options (text "rand-seed")).toOption ≠ none)
    (typed : sbGetValueString options (text "rand-type") = some s)
    (known : (randDist s).toOption ≠ none)
    (iter : (sbGetValueInt options (text "rand-spec-iter")).toOption ≠ none)
    (pct : (sbGetValueInt options (text "rand-spec-pct")).toOption ≠ none)
    (res : (sbGetValueInt options (text "rand-spec-res")).toOption ≠ none)
    (exponent : 0 ≤ sbGetValueDouble strtod options (text "rand-zipfian-exp")) :
    ∃ rand, sbRandInit m strtod options = .ok rand := by
  have read : ∀ {Failure Value : Type} (result : Except Failure Value),
      result.toOption ≠ none → ∃ value, result = .ok value := by
    intro Failure Value result some
    cases result with
    | error failure => exact absurd rfl some
    | ok value => exact ⟨value, rfl⟩
  obtain ⟨_, seed⟩ := read _ seed
  obtain ⟨_, known⟩ := read _ known
  obtain ⟨_, iter⟩ := read _ iter
  obtain ⟨_, pct⟩ := read _ pct
  obtain ⟨_, res⟩ := read _ res
  simp only [sbRandInit, readIntOption, seed, typed, Option.elim, iter, pct, res, bind, Except.bind,
    known, Except.mapError, if_neg exponent.not_gt]
  exact ⟨_, rfl⟩

/-- An iteration count that is not registered reads as 0. -/
theorem unregistered_divides (accepted : sbRandInit m strtod options = .ok rand)
    (unregistered : findOption options (text "rand-spec-iter") = none) :
    rand.randIterMult = none := by
  obtain ⟨iter, _, readIter, _, _, iterMult, _⟩ := rand_init_cases accepted
  rw [sbGetValueInt, unregistered] at readIter
  obtain rfl : 0 = iter := Except.ok.inj readIter
  rw [iterMult]
  rfl

theorem unsigned_eq_iff (n : Int) (value : Nat) (fits : -2 ^ 31 ≤ n ∧ n < 2 ^ 31)
    (small : value < 2 ^ 31) : toUnsigned n = value ↔ n = value := by
  unfold toUnsigned
  omega

/-- The exact guarantee of the samplers, over every accepted set of options. -/
theorem draws_kept_iff (m : Libm) (conv : Conversion) (strtod : Text → ℚ) (options : Registry)
    (rand : RandState) (bounds : Bounds) (accepted : sbRandInit m strtod options = .ok rand) :
    DrawsKept m conv rand bounds ↔ Divisors m strtod options ∧ ¬ bounds.Full := by
  obtain ⟨iter, res, readIter, readRes, iterations, iterMult, resMult, paretoPower, zipf⟩ :=
    rand_init_cases accepted
  have iterZero := unsigned_eq_iff iter 0 (get_value_int_fits _ _ _ readIter) (by decide)
  have resHundred := unsigned_eq_iff res 100 (get_value_int_fits _ _ _ readRes) (by decide)
  have iterDefined : rand.randIterMult ≠ none ↔ iter ≠ 0 := by
    rw [iterMult, guarded_div_defined, Nat.cast_ne_zero]
    exact iterZero.not
  have resDefined : rand.randResMult ≠ none ↔ res ≠ 100 := by
    have hundred : (100 : ℚ) = toUnsigned res ↔ res = 100 := by
      exact_mod_cast eq_comm.trans resHundred
    rw [resMult, guarded_div_defined, sub_ne_zero]
    exact hundred.not
  have paretoDefined : rand.paretoPower ≠ none ↔
      m.log (1 - sbGetValueDouble strtod options (text "rand-pareto-h")) ≠ 0 := by
    rw [paretoPower, guarded_div_defined]
  constructor
  · intro kept
    exact ⟨{ iterations := by rw [readIter]; simpa using iterDefined.mp kept.iterations
             values := by rw [readRes]; simpa using resDefined.mp kept.values
             pareto := paretoDefined.mp kept.pareto },
      (uniform_reaches_iff bounds).mp kept.reached⟩
  · rintro ⟨divisors, partly⟩
    have drawn : iter ≠ 0 := by simpa [readIter] using divisors.iterations
    exact
      { iterations := iterDefined.mpr drawn
        values := resDefined.mpr (by simpa [readRes] using divisors.values)
        pareto := paretoDefined.mpr divisors.pareto
        zipf := zipf
        uniform := uniform_inside bounds
        gaussian := fun draws => gaussian_inside conv rand bounds draws
          (by rw [iterMult, iterations]) (by rw [iterations]; exact iterZero.not.mpr drawn)
        zipfian := fun draws => zipfian_inside rand bounds draws zipf
        reached := (uniform_reaches_iff bounds).mpr partly }

end Init

/-! The options of `rand_args`, and those of the manual besides. -/
section Runs

def defaultOptions : Registry := registerSets noFiles [] [randArgs]

/-- Options that the manual names and `rand_args` does not have. -/
def specArgs : List Arg :=
  [sbOpt "rand-spec-iter" (some "12") .int,
    sbOpt "rand-spec-pct" (some "1") .int,
    sbOpt "rand-spec-res" (some "75") .int]

def manualOptions : Registry := registerSets noFiles [] [randArgs, specArgs]

def readDefaults (value : Text) : ℚ :=
  if value = text "0.2" then 1 / 5 else if value = text "0.8" then 4 / 5 else 0

/-- Logarithm and exponential to the first order. -/
def linear : Libm :=
  { log := fun x => x - 1, log1p := fun x => x, exp := fun x => 1 + x, expm1 := fun x => x }

def truncating : Conversion where
  toUint32 x := ⌊x⌋₊ % 2 ^ 32
  bounded x := Nat.mod_lt _ (by decide)
  truncates x low high := by
    apply Nat.mod_eq_of_lt
    rcases le_or_gt 0 x with nonneg | negative
    · exact (Nat.floor_lt nonneg).mpr (by exact_mod_cast high)
    · rw [Nat.floor_of_nonpos negative.le]
      decide

/-- The manual's values leave every divisor alone. -/
theorem manual_draws_kept : ∃ rand, sbRandInit linear readDefaults manualOptions = .ok rand ∧
    DrawsKept linear truncating rand
      { a := 1, b := 10, ordered := by decide, fits := by decide } := by
  have iterations : sbGetValueInt manualOptions (text "rand-spec-iter") = .ok 12 := by
    decide +kernel
  have values : sbGetValueInt manualOptions (text "rand-spec-res") = .ok 75 := by decide +kernel
  have pareto : sbGetValueDouble readDefaults manualOptions (text "rand-pareto-h") = 1 / 5 := by
    decide +kernel
  obtain ⟨rand, accepted⟩ := rand_init_accepts linear readDefaults manualOptions (text "uniform")
    (by decide +kernel) (by decide +kernel) (by decide) (by rw [iterations]; decide)
    (by decide +kernel) (by rw [values]; decide) (by decide +kernel)
  refine ⟨rand, accepted, (draws_kept_iff linear truncating readDefaults manualOptions rand _
    accepted).mpr ⟨?_, by unfold Bounds.Full; decide⟩⟩
  exact { iterations := by rw [iterations]; decide
          values := by rw [values]; decide
          pareto := by rw [pareto]; norm_num [linear] }

/-- Under the options that there are, the first division is by zero and no Gaussian draw
is a number; and no uniform draw from all of `uint32_t` is above 0. -/
theorem no_iterations : ∃ rand, sbRandInit linear readDefaults defaultOptions = .ok rand ∧
    rand.randIterMult = none ∧
    (∀ draws, sbRandGaussian truncating rand draws 1 10 = none) ∧
    ∀ x, sbRandUniform x 0 (2 ^ 32 - 1) = 0 := by
  obtain ⟨rand, accepted⟩ := rand_init_accepts linear readDefaults defaultOptions (text "uniform")
    (by decide +kernel) (by decide +kernel) (by decide) (by decide +kernel) (by decide +kernel)
    (by decide +kernel) (by decide +kernel)
  have unregistered : (findOption defaultOptions (text "rand-spec-iter")).isNone = true := by
    decide +kernel
  have divided := unregistered_divides accepted (Option.isNone_iff_eq_none.mp unregistered)
  refine ⟨rand, accepted, divided, ?_, ?_⟩
  · intro draws
    rw [sbRandGaussian, divided, Option.map_none]
  · intro x
    simp [sbRandUniform]

end Runs
end PteSysbench.RandDistributions
