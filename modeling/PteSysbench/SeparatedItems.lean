import Mathlib.Data.List.Basic

/-!
Texts cut at a separator: the items of a list, without an empty one at its end, and
what is left of a text behind its first delimiter.
-/

namespace PteSysbench.SeparatedItems

variable {α : Type*} {sep : α} {item rest xs : List α}

section Items
variable [DecidableEq α]

/-- The items, without an empty one at the end. -/
def untrailed (items : List (List α)) : List (List α) :=
  if items.getLast? = some [] then items.dropLast else items

def items (sep : α) (xs : List α) : List (List α) := xs.splitOn sep

def separated (sep : α) (xs : List α) : List (List α) := untrailed (items sep xs)

def firstItem (sep : α) (xs : List α) : List α := xs.takeWhile (· ≠ sep)

/-- A text is one item, or an item with a separator and another text behind it. -/
@[elab_as_elim]
theorem item_induction (sep : α) {motive : List α → Prop}
    (single : ∀ item, sep ∉ item → motive item)
    (more : ∀ item rest, sep ∉ item → motive rest → motive (item ++ sep :: rest))
    (xs : List α) : motive xs := by
  induction size : xs.length using Nat.strongRecOn generalizing xs with
  | ind n ih =>
      by_cases present : sep ∈ xs
      · obtain ⟨item, rest, rfl, absent⟩ := List.eq_append_cons_of_mem present
        exact more item rest absent (ih rest.length (by simp [← size]; omega) rest rfl)
      · exact single xs present

theorem items_single (absent : sep ∉ item) : items sep item = [item] :=
  List.splitOn_eq_singleton absent

theorem items_item (absent : sep ∉ item) :
    items sep (item ++ sep :: rest) = item :: items sep rest :=
  List.splitOn_append_cons_self_of_not_mem absent rest

theorem items_ne_nil (sep : α) (xs : List α) : items sep xs ≠ [] := List.splitOn_ne_nil sep xs

theorem separated_single (absent : sep ∉ item) :
    separated sep item = if item = [] then [] else [item] := by
  rw [separated, items_single absent, untrailed]
  by_cases empty : item = [] <;> simp [empty]

theorem separated_item (absent : sep ∉ item) :
    separated sep (item ++ sep :: rest) = item :: separated sep rest := by
  have others := items_ne_nil sep rest
  rw [separated, items_item absent, separated, untrailed, untrailed,
    List.getLast?_cons_of_ne_nil others, List.dropLast_cons_of_ne_nil others]
  split <;> rfl

theorem first_item (absent : sep ∉ item) : firstItem sep (item ++ sep :: rest) = item := by
  have apart : ∀ x ∈ item, decide (x ≠ sep) = true := by
    intro x member
    simpa using fun same : x = sep => absent (same ▸ member)
  rw [firstItem, List.takeWhile_append_of_pos apart]
  simp

/-- Only an empty item before the last one tells the two readings of a list apart. -/
theorem kept_eq_separated_iff (sep : α) (xs : List α) :
    (items sep xs).filter (· ≠ []) = separated sep xs ↔ [] ∉ (items sep xs).dropLast := by
  induction xs using item_induction sep with
  | single item absent =>
      rw [separated_single absent, items_single absent]
      by_cases empty : item = [] <;> simp [empty]
  | more item rest absent ih =>
      rw [separated_item absent, items_item absent,
        List.dropLast_cons_of_ne_nil (items_ne_nil sep rest)]
      by_cases empty : item = []
      · -- no filtered list begins with an empty item
        subst empty
        have kept : ([] : List α) ∉ (items sep rest).filter (· ≠ []) := by simp
        simp only [ne_eq, not_true_eq_false, decide_false, Bool.false_eq_true, not_false_eq_true,
          List.filter_cons_of_neg, List.mem_cons, true_or, iff_false]
        intro same
        rw [same] at kept
        exact kept List.mem_cons_self
      · rw [List.filter_cons_of_pos (by simpa using empty), List.cons.injEq, ih]
        simp [Ne.symm empty]

end Items

theorem infix_parts (lead mid trail : List α) (within : xs <:+: lead ++ mid ++ trail) :
    ∃ a b c, xs = a ++ b ++ c ∧ a ⊆ lead ∧ b ⊆ mid ∧ c ⊆ trail := by
  obtain ⟨before, after, whole⟩ := within
  have cut : xs = ((lead ++ mid ++ trail).drop before.length).take xs.length := by
    rw [← whole]
    simp
  rw [List.drop_append, List.drop_append, List.take_append, List.take_append] at cut
  exact ⟨_, _, _, cut, fun _ member => List.drop_subset _ _ (List.take_subset _ _ member),
    fun _ member => List.drop_subset _ _ (List.take_subset _ _ member),
    fun _ member => List.drop_subset _ _ (List.take_subset _ _ member)⟩

/-- What follows a delimiter is part of what follows the first one. -/
theorem after_delimiter {head tail before after : List α} (absent : sep ∉ head)
    (same : before ++ sep :: after = head ++ sep :: tail) : after <:+ tail := by
  rcases List.append_eq_append_iff.mp same with ⟨gap, heads, tails⟩ | ⟨gap, heads, tails⟩
  · cases gap with
    | nil =>
        cases tails
        exact List.suffix_rfl
    | cons first gap =>
        cases tails
        exact absurd (by simp [heads]) absent
  · cases gap with
    | nil =>
        cases tails
        exact List.suffix_rfl
    | cons first gap =>
        cases tails
        exact ⟨gap ++ [sep], by simp⟩

end PteSysbench.SeparatedItems
