import PteSysbench.ActionSystem
import PteSysbench.SquareFold
import Mathlib.Data.Finite.Defs
import Mathlib.Data.Fintype.EquivFin
import Mathlib.Logic.Function.Basic

/-!
The unique sequence of sb_rand.c: an index handed out by an atomic fetch-and-add
and permuted twice. A ticket is the number of fetch-and-adds before a call's own.
-/

namespace PteSysbench.RandUnique

open ActionSystem SquareFold

def prime : UInt32 := 4294967291

/-- `rand_unique_permute`. -/
def randUniquePermute (x : UInt32) : UInt32 :=
  if prime ≤ x then x
  else
    let residue := ((x.toUInt64 * x.toUInt64) % prime.toUInt64).toUInt32
    if x ≤ prime / 2 then residue else prime - residue

/-- What `sb_rand_unique` returns for the index it fetched. -/
def permuteIndex (offset index : UInt32) : UInt32 :=
  randUniquePermute ((randUniquePermute index + offset) ^^^ 0x5bf03635)

structure State (Thread : Type*) where
  randUniqueIndex : UInt32
  randUniqueOffset : UInt32
  fetched : Nat
  pending : Thread → Option (Nat × UInt32)
  returned : List (Nat × UInt32)

/-- The two steps of `sb_rand_unique` that other threads can come between. -/
inductive Action (Thread : Type*) where
  | fetch (thread : Thread)
  | finish (thread : Thread)

section Calls
variable {Thread : Type*} [DecidableEq Thread]

def start (index offset : UInt32) : State Thread :=
  { randUniqueIndex := index, randUniqueOffset := offset, fetched := 0
    pending := fun _ => none, returned := [] }

/-- `rand_unique_seed`. -/
def randUniqueSeed (index offset : UInt32) : State Thread :=
  start (randUniquePermute (randUniquePermute index + 0x682f0161))
    (randUniquePermute (randUniquePermute offset + 0x46790905))

/-- `sb_rand_unique`. -/
def step (s : State Thread) : Action Thread → Option (State Thread)
  | .fetch thread =>
      match s.pending thread with
      | some _ => none
      | none => some { s with
          randUniqueIndex := s.randUniqueIndex + 1
          fetched := s.fetched + 1
          pending := Function.update s.pending thread (some (s.fetched, s.randUniqueIndex)) }
  | .finish thread =>
      match s.pending thread with
      | none => none
      | some (ticket, index) => some { s with
          pending := Function.update s.pending thread none
          returned := (ticket, permuteIndex s.randUniqueOffset index) :: s.returned }

end Calls

/-! The permutation. -/
section Permutation

instance primeFact : Fact (Nat.Prime 4294967291) :=
  ⟨prime_of_block _ 16 (by decide) (by decide) (by decide +kernel)⟩

theorem permute_to_nat (x : UInt32) (below : x.toNat < 4294967291) :
    (randUniquePermute x).toNat = foldSquare 4294967291 x.toNat := by
  have square : x.toNat * x.toNat < 2 ^ 64 :=
    Nat.lt_of_le_of_lt (Nat.mul_le_mul (Nat.le_of_lt below) (Nat.le_of_lt below)) (by decide)
  have residue : (((x.toUInt64 * x.toUInt64) % prime.toUInt64).toUInt32).toNat =
      x.toNat * x.toNat % 4294967291 := by
    have reduced := Nat.mod_lt (x.toNat * x.toNat) (show 0 < 4294967291 by decide)
    simp only [UInt64.toNat_toUInt32, UInt64.toNat_mod, UInt64.toNat_mul, UInt32.toNat_toUInt64]
    rw [Nat.mod_eq_of_lt square, show prime.toNat = 4294967291 from rfl]
    omega
  have outside : ¬ prime ≤ x := by
    rw [UInt32.le_iff_toNat_le]
    exact Nat.not_le.mpr below
  simp only [randUniquePermute, foldSquare, outside, ↓reduceIte]
  by_cases low : x ≤ prime / 2
  · have half : x.toNat ≤ 4294967291 / 2 := UInt32.le_iff_toNat_le.mp low
    rw [if_pos low, if_pos half, residue]
  · have half : ¬ x.toNat ≤ 4294967291 / 2 := fun le => low (UInt32.le_iff_toNat_le.mpr le)
    rw [if_neg low, if_neg half, UInt32.toNat_sub_of_le, residue]
    · rfl
    · rw [UInt32.le_iff_toNat_le, residue]
      exact Nat.le_of_lt (Nat.mod_lt _ (by decide))

theorem permute_outside (x : UInt32) (outside : 4294967291 ≤ x.toNat) :
    randUniquePermute x = x := by
  have above : prime ≤ x := UInt32.le_iff_toNat_le.mpr outside
  exact if_pos above

theorem permute_injective : Function.Injective randUniquePermute := by
  intro x y same
  have numbers := congrArg UInt32.toNat same
  apply UInt32.toNat_inj.mp
  by_cases xBelow : x.toNat < 4294967291
  · rw [permute_to_nat x xBelow] at numbers
    have xFold := fold_lt x.toNat xBelow
    by_cases yBelow : y.toNat < 4294967291
    · rw [permute_to_nat y yBelow] at numbers
      exact fold_injective (by decide) x.toNat y.toNat xBelow yBelow numbers
    · -- a fixed point at or above the prime against a fold below it
      rw [permute_outside y (by omega)] at numbers
      omega
  · rw [permute_outside x (by omega)] at numbers
    by_cases yBelow : y.toNat < 4294967291
    · have yFold := fold_lt y.toNat yBelow
      rw [permute_to_nat y yBelow] at numbers
      omega
    · rwa [permute_outside y (by omega)] at numbers

instance wordFinite : Finite UInt32 :=
  Finite.of_injective UInt32.toFin fun _ _ same => UInt32.toFin_inj.mp same

theorem permute_bijective : Function.Bijective randUniquePermute :=
  Finite.injective_iff_bijective.mp permute_injective

theorem permute_index_injective (offset : UInt32) : Function.Injective (permuteIndex offset) := by
  intro x y same
  have mixed := permute_injective same
  have summed := (UInt32.xor_left_inj _).mp mixed
  exact permute_injective ((UInt32.add_left_inj _).mp summed)

/-- Seeding loses no state: every index and offset come from some pair of numbers. -/
theorem seed_reaches {Thread : Type*} [DecidableEq Thread] (index offset : UInt32) :
    ∃ first second, (randUniqueSeed first second : State Thread) = start index offset := by
  have back (constant x : UInt32) :
      ∃ y, randUniquePermute (randUniquePermute y + constant) = x := by
    obtain ⟨outer, outerEq⟩ := permute_bijective.2 x
    obtain ⟨inner, innerEq⟩ := permute_bijective.2 (outer - constant)
    exact ⟨inner, by rw [innerEq, UInt32.sub_add_cancel, outerEq]⟩
  obtain ⟨first, firstEq⟩ := back 0x682f0161 index
  obtain ⟨second, secondEq⟩ := back 0x46790905 offset
  exact ⟨first, second, by rw [randUniqueSeed, firstEq, secondEq]⟩

end Permutation

/-! Every call holds a ticket of its own, and the index it fetched is the seed plus its ticket. -/
section Tickets
variable {Thread : Type*} {seed offset : UInt32} {s t : State Thread}

structure Ticketed (seed offset : UInt32) (s : State Thread) : Prop where
  unmoved : s.randUniqueOffset = offset
  index : s.randUniqueIndex = seed + UInt32.ofNat s.fetched
  pending : ∀ thread ticket index, s.pending thread = some (ticket, index) →
    index = seed + UInt32.ofNat ticket ∧ ticket < s.fetched
  apart : ∀ thread other ticket index another, s.pending thread = some (ticket, index) →
    s.pending other = some (ticket, another) → thread = other
  unreturned : ∀ thread ticket index, s.pending thread = some (ticket, index) →
    ∀ value, (ticket, value) ∉ s.returned
  returned : ∀ ticket value, (ticket, value) ∈ s.returned →
    value = permuteIndex offset (seed + UInt32.ofNat ticket) ∧ ticket < s.fetched
  once : (s.returned.map Prod.fst).Nodup

theorem start_ticketed (index offset : UInt32) :
    Ticketed index offset (start index offset : State Thread) := by
  constructor <;> simp [start]

/-- Tickets less than 2^32 apart give different indices. -/
theorem index_injective (seed : UInt32) (first left right : Nat) (leftLow : first ≤ left)
    (leftHigh : left < first + 2 ^ 32) (rightLow : first ≤ right)
    (rightHigh : right < first + 2 ^ 32)
    (same : seed + UInt32.ofNat left = seed + UInt32.ofNat right) : left = right := by
  have words := (UInt32.add_right_inj seed).mp same
  have residues := congrArg UInt32.toNat words
  rw [UInt32.toNat_ofNat', UInt32.toNat_ofNat'] at residues
  omega

/-- The values of the calls whose tickets lie among 2^32 consecutive ones. -/
def valuesFrom (s : State Thread) (first : Nat) : List UInt32 :=
  (s.returned.filter fun call => first ≤ call.1 && call.1 < first + 2 ^ 32).map Prod.snd

theorem ticketed_values (ticketed : Ticketed seed offset s) (first : Nat) :
    (valuesFrom s first).Nodup := by
  have calls : (s.returned.filter fun call =>
      first ≤ call.1 && call.1 < first + 2 ^ 32).Nodup :=
    (List.Nodup.of_map Prod.fst ticketed.once).filter _
  refine calls.map_on ?_
  rintro ⟨left, leftValue⟩ leftMember ⟨right, rightValue⟩ rightMember same
  simp only [List.mem_filter, Bool.and_eq_true, decide_eq_true_eq] at leftMember rightMember same
  have leftComputed := (ticketed.returned left leftValue leftMember.1).1
  have rightComputed := (ticketed.returned right rightValue rightMember.1).1
  rw [leftComputed, rightComputed] at same
  have tickets : left = right :=
    index_injective seed first left right leftMember.2.1 leftMember.2.2 rightMember.2.1
      rightMember.2.2 (permute_index_injective offset same)
  subst tickets
  rw [leftComputed, rightComputed]

variable [DecidableEq Thread]

theorem fetch_ticketed (ticketed : Ticketed seed offset s) (thread : Thread)
    (taken : step s (.fetch thread) = some t) : Ticketed seed offset t := by
  cases idle : s.pending thread with
  | some call => simp [step, idle] at taken
  | none =>
      simp only [step, idle, Option.some.injEq] at taken
      subst taken
      -- the new ticket is the first one nobody has held
      have fresh (other : Thread) (ticket : Nat) (index : UInt32)
          (held : s.pending other = some (ticket, index)) : ticket ≠ s.fetched :=
        Nat.ne_of_lt (ticketed.pending other ticket index held).2
      constructor
      · exact ticketed.unmoved
      · change s.randUniqueIndex + 1 = seed + UInt32.ofNat (s.fetched + 1)
        rw [ticketed.index, UInt32.ofNat_add, UInt32.add_assoc]
        rfl
      · intro other ticket index held
        by_cases same : other = thread
        · subst same
          simp only [Function.update_self, Option.some.injEq, Prod.mk.injEq] at held
          obtain ⟨rfl, rfl⟩ := held
          exact ⟨ticketed.index, Nat.lt_succ_self _⟩
        · simp only [ne_eq, same, not_false_eq_true, Function.update_of_ne] at held
          obtain ⟨seeded, below⟩ := ticketed.pending other ticket index held
          exact ⟨seeded, Nat.lt_succ_of_lt below⟩
      · intro left right ticket index another leftHeld rightHeld
        by_cases leftSame : left = thread <;> by_cases rightSame : right = thread
        · rw [leftSame, rightSame]
        · simp only [leftSame, rightSame, Function.update_self, Option.some.injEq, Prod.mk.injEq,
            ne_eq, not_false_eq_true, Function.update_of_ne] at leftHeld rightHeld
          exact absurd leftHeld.1.symm (fresh right ticket another rightHeld)
        · simp only [leftSame, rightSame, Function.update_self, Option.some.injEq, Prod.mk.injEq,
            ne_eq, not_false_eq_true, Function.update_of_ne] at leftHeld rightHeld
          exact absurd rightHeld.1.symm (fresh left ticket index leftHeld)
        · simp only [leftSame, rightSame, ne_eq, not_false_eq_true,
            Function.update_of_ne] at leftHeld rightHeld
          exact ticketed.apart left right ticket index another leftHeld rightHeld
      · intro other ticket index held value member
        have below := (ticketed.returned ticket value member).2
        by_cases same : other = thread
        · subst same
          simp only [Function.update_self, Option.some.injEq, Prod.mk.injEq] at held
          exact absurd held.1.symm (Nat.ne_of_lt below)
        · simp only [ne_eq, same, not_false_eq_true, Function.update_of_ne] at held
          exact ticketed.unreturned other ticket index held value member
      · intro ticket value member
        obtain ⟨computed, below⟩ := ticketed.returned ticket value member
        exact ⟨computed, Nat.lt_succ_of_lt below⟩
      · exact ticketed.once

theorem finish_ticketed (ticketed : Ticketed seed offset s) (thread : Thread)
    (taken : step s (.finish thread) = some t) : Ticketed seed offset t := by
  cases busy : s.pending thread with
  | none => simp [step, busy] at taken
  | some call =>
      obtain ⟨ticket, index⟩ := call
      simp only [step, busy, Option.some.injEq] at taken
      subst taken
      obtain ⟨seeded, below⟩ := ticketed.pending thread ticket index busy
      -- the calls of the other threads go on as they were
      have others (other : Thread) (number : Nat) (word : UInt32)
          (held : Function.update s.pending thread none other = some (number, word)) :
          other ≠ thread ∧ s.pending other = some (number, word) := by
        by_cases same : other = thread
        · simp [same] at held
        · exact ⟨same, by simpa [same] using held⟩
      constructor
      · exact ticketed.unmoved
      · exact ticketed.index
      · intro other number word held
        exact ticketed.pending other number word (others other number word held).2
      · intro left right number word another leftHeld rightHeld
        exact ticketed.apart left right number word another (others _ _ _ leftHeld).2
          (others _ _ _ rightHeld).2
      · intro other number word held value member
        obtain ⟨distinct, before⟩ := others other number word held
        rcases List.mem_cons.mp member with new | old
        · obtain ⟨rfl, _⟩ := Prod.mk.inj new
          exact distinct (ticketed.apart other thread number word index before busy)
        · exact ticketed.unreturned other number word before value old
      · intro number value member
        rcases List.mem_cons.mp member with new | old
        · obtain ⟨rfl, rfl⟩ := Prod.mk.inj new
          exact ⟨by rw [ticketed.unmoved, seeded], below⟩
        · exact ticketed.returned number value old
      · refine List.nodup_cons.mpr ⟨fun listed => ?_, ticketed.once⟩
        obtain ⟨⟨number, value⟩, member, same⟩ := List.mem_map.mp listed
        subst same
        exact ticketed.unreturned thread _ index busy value member

theorem step_ticketed (s : State Thread) (a : Action Thread) (t : State Thread)
    (ticketed : Ticketed seed offset s) (taken : step s a = some t) : Ticketed seed offset t := by
  cases a with
  | fetch thread => exact fetch_ticketed ticketed thread taken
  | finish thread => exact finish_ticketed ticketed thread taken

theorem unique_calls_distinct :
    Function.Bijective randUniquePermute ∧
      ∀ (index offset : UInt32) (schedule : List (Action Thread)),
        Always step (fun s => ∀ first, (valuesFrom s first).Nodup) (start index offset)
          schedule := by
  refine ⟨permute_bijective, fun index offset schedule => ?_⟩
  exact always_mono (fun _ ticketed first => ticketed_values ticketed first) _ schedule
    (invariant_keeps step_ticketed _ schedule (start_ticketed index offset))

end Tickets
end PteSysbench.RandUnique
