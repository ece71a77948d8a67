import Mathlib.Data.List.Count
import Mathlib.Data.List.Basic
import Mathlib.Data.Int.Order.Basic

/-!
An interval cut into consecutive pieces, and a walk that goes through one list of
pieces again and again while it may do other things in between.
-/

namespace PteSysbench.Tiling

/-- Pieces `(start, length)` that follow each other up to `stop`, all of length `unit`
but the last, which is not longer. -/
inductive Tiles (unit stop : Int) : Int → List (Int × Int) → Prop where
  | last (start : Int) (some_ : start < stop) (fits : stop ≤ start + unit) :
      Tiles unit stop start [(start, stop - start)]
  | next (start : Int) (rest : List (Int × Int)) (more : start + unit < stop)
      (tiled : Tiles unit stop (start + unit) rest) :
      Tiles unit stop start ((start, unit) :: rest)

section Pieces
variable {unit stop start : Int} {tiles : List (Int × Int)}

theorem tiles_exist (positive : 0 < unit) (start : Int) (some_ : start < stop) :
    ∃ tiles, Tiles unit stop start tiles := by
  -- on what is left of the interval
  induction left : (stop - start).toNat using Nat.strongRecOn generalizing start with
  | ind left ih =>
      by_cases more : start + unit < stop
      · obtain ⟨rest, tiled⟩ := ih _ (by omega) (start + unit) more rfl
        exact ⟨_, .next start rest more tiled⟩
      · exact ⟨_, .last start some_ (by omega)⟩

theorem tiles_nonempty (tiled : Tiles unit stop start tiles) : tiles ≠ [] := by
  cases tiled <;> exact List.cons_ne_nil _ _

theorem tiles_inside (positive : 0 < unit) (tiled : Tiles unit stop start tiles) :
    ∀ tile ∈ tiles, start ≤ tile.1 ∧ 0 < tile.2 ∧ tile.1 + tile.2 ≤ stop := by
  induction tiled with
  | last start some_ fits =>
      intro tile member
      obtain rfl := List.mem_singleton.mp member
      exact ⟨le_rfl, by omega, by omega⟩
  | next start rest more tiled ih =>
      intro tile member
      rcases List.mem_cons.mp member with rfl | later
      · exact ⟨le_rfl, positive, by omega⟩
      · have inside := ih tile later
        exact ⟨by omega, inside.2⟩

def covers (point : Int) (tile : Int × Int) : Bool :=
  decide (tile.1 ≤ point ∧ point < tile.1 + tile.2)

theorem tiles_before (positive : 0 < unit) (tiled : Tiles unit stop start tiles) (point : Int)
    (before : point < start) : tiles.countP (covers point) = 0 := by
  rw [List.countP_eq_zero]
  intro tile member
  have inside := tiles_inside positive tiled tile member
  simp only [covers, decide_eq_true_eq]
  omega

theorem tiles_cover_once (positive : 0 < unit) (tiled : Tiles unit stop start tiles) (point : Int)
    (after : start ≤ point) (before : point < stop) : tiles.countP (covers point) = 1 := by
  induction tiled with
  | last start some_ fits =>
      have here : covers point (start, stop - start) = true := by
        simp only [covers, decide_eq_true_eq]
        omega
      simp [here]
  | next start rest more tiled ih =>
      by_cases first : point < start + unit
      · have here : covers point (start, unit) = true := by simp [covers, after, first]
        simp [here, tiles_before positive tiled point first]
      · have past : covers point (start, unit) = false := by simp [covers, first]
        simp [past, ih (by omega)]

theorem tiles_at_most (tiled : Tiles unit stop start tiles) : ∀ tile ∈ tiles, tile.2 ≤ unit := by
  induction tiled with
  | last start some_ fits =>
      rw [List.forall_mem_singleton]
      simp only
      omega
  | next start rest more tiled ih => exact List.forall_mem_cons.mpr ⟨le_rfl, ih⟩

/-- Every piece has a length of at least `least` just when the first and the last have. -/
theorem tiles_at_least (tiled : Tiles unit stop start tiles) (least : Int) :
    (∀ tile ∈ tiles, least ≤ tile.2) ↔ least ≤ min unit (stop - start) ∧
      ((stop - start) % unit = 0 ∨ least ≤ (stop - start) % unit) := by
  induction tiled with
  | last start some_ fits =>
      rw [List.forall_mem_singleton]
      by_cases full : stop = start + unit
      · have whole : stop - start = unit := by omega
        simp [whole]
      · rw [Int.emod_eq_of_lt (by omega) (by omega)]
        omega
  | next start rest more tiled ih =>
      rw [List.forall_mem_cons, ih, show stop - (start + unit) = stop - start - unit by omega,
        Int.sub_emod_right]
      have part := Int.emod_eq_of_lt (a := stop - start - unit) (b := unit) (by omega)
      rw [Int.sub_emod_right] at part
      omega

end Pieces

/-! A machine that gives an item in every step, of which some belong to the walk. -/
section Walks
variable {State Item : Type*} {step : State → Item × State}

/-- The items of so many steps. -/
def outputs (step : State → Item × State) : Nat → State → List Item
  | 0, _ => []
  | count + 1, st => (step st).1 :: outputs step count (step st).2

/-- The pass begins again behind its last item. -/
theorem next_of_pass (pass later : List Item) (item : Item) (done : Nat)
    (front : pass.drop (done % pass.length) = item :: later) :
    (if later = [] then pass else later) = pass.drop ((done + 1) % pass.length) := by
  have tail : later = pass.drop (done % pass.length + 1) := by
    rw [← List.tail_drop, front, List.tail_cons]
  have bound : done % pass.length < pass.length := by
    by_contra past
    rw [List.drop_eq_nil_of_le (Nat.le_of_not_lt past)] at front
    cases front
  rw [← Nat.mod_add_mod]
  by_cases last : later = []
  · have full : done % pass.length + 1 = pass.length := by
      rw [last, eq_comm, List.drop_eq_nil_iff] at tail
      omega
    rw [if_pos last, full, Nat.mod_self, List.drop_zero]
  · have more : done % pass.length + 1 < pass.length := by
      by_contra full
      rw [tail, List.drop_eq_nil_iff] at last
      omega
    rw [if_neg last, Nat.mod_eq_of_lt more, tail]

/-- With `left` what is still to come of the pass, the `i`-th item of the walk is the one at
`i` modulo the length of the pass. -/
theorem walk_cyclic (walk : Item → Bool) (pass : List Item) (left : State → List Item → Prop)
    (skipped : ∀ st rest, left st rest → walk (step st).1 = false → left (step st).2 rest)
    (walked : ∀ st rest, left st rest → walk (step st).1 = true →
      ∃ later, rest = (step st).1 :: later ∧ left (step st).2 (if later = [] then pass else later))
    (count : Nat) (st : State) (done : Nat) (here : left st (pass.drop (done % pass.length)))
    (i : Nat) (item : Item) (given : ((outputs step count st).filter walk)[i]? = some item) :
    pass[(done + i) % pass.length]? = some item := by
  -- on the outputs still to come; `done` counts the items walked before
  induction count generalizing st done i with
  | zero => simp [outputs] at given
  | succ count ih =>
      cases kind : walk (step st).1 with
      | false =>
          simp only [outputs, List.filter_cons, kind, Bool.false_eq_true, ↓reduceIte] at given
          exact ih (step st).2 done (skipped st _ here kind) i given
      | true =>
          simp only [outputs, List.filter_cons, kind, ↓reduceIte] at given
          obtain ⟨later, front, next⟩ := walked st _ here kind
          have first : pass[done % pass.length]? = some (step st).1 := by
            rw [← Nat.add_zero (done % pass.length), ← List.getElem?_drop, front]
            rfl
          cases i with
          | zero => rwa [Nat.add_zero, first]
          | succ i =>
              rw [next_of_pass pass later _ done front] at next
              rw [← Nat.add_assoc, Nat.add_right_comm]
              exact ih (step st).2 (done + 1) next i given

/-- Every item of the walk is related to the one before it, and the first to `last`. -/
theorem walk_chain (walk : Item → Bool) (related : Item → Item → Prop)
    (behind : State → Item → Prop)
    (skipped : ∀ st last, behind st last → walk (step st).1 = false → behind (step st).2 last)
    (walked : ∀ st last, behind st last → walk (step st).1 = true →
      related last (step st).1 ∧ behind (step st).2 (step st).1)
    (count : Nat) (st : State) (last : Item) (here : behind st last) :
    List.IsChain related (last :: (outputs step count st).filter walk) := by
  induction count generalizing st last with
  | zero => exact .singleton last
  | succ count ih =>
      cases kind : walk (step st).1 with
      | false =>
          simp only [outputs, List.filter_cons, kind, Bool.false_eq_true, ↓reduceIte]
          exact ih (step st).2 last (skipped st last here kind)
      | true =>
          simp only [outputs, List.filter_cons, kind, ↓reduceIte]
          obtain ⟨follows, next⟩ := walked st last here kind
          exact List.isChain_cons_cons.mpr ⟨follows, ih (step st).2 _ next⟩

/-- A walk goes on when what is done in between comes to an end. -/
theorem walk_goes_on (walk : Item → Bool) (inv : State → Prop) (rank : State → Nat)
    (kept : ∀ st, inv st → inv (step st).2)
    (falls : ∀ st, inv st → walk (step st).1 = false → rank (step st).2 < rank st)
    (st : State) (here : inv st) (length : Nat) :
    ∃ count, ((outputs step count st).filter walk).length = length := by
  induction length generalizing st with
  | zero => exact ⟨0, rfl⟩
  | succ length more =>
      induction left : rank st using Nat.strongRecOn generalizing st with
      | ind left ih =>
          cases kind : walk (step st).1 with
          | true =>
              obtain ⟨count, same⟩ := more (step st).2 (kept st here)
              exact ⟨count + 1, by simp [outputs, kind, same]⟩
          | false =>
              obtain ⟨count, same⟩ :=
                ih _ (left ▸ falls st here kind) (step st).2 (kept st here) rfl
              exact ⟨count + 1, by simpa [outputs, kind] using same⟩

end Walks
end PteSysbench.Tiling
