import Mathlib.Data.Finset.Card
import Mathlib.Data.Finset.Lattice.Fold
import Mathlib.Order.Interval.Finset.Nat

/-!
Parties that hold one item each. With no more parties than items there is always one item
that no other party holds; with fewer items than parties, some party can let go of its own
and no item becomes free, so the parties can come to hold all items.
-/

namespace PteSysbench.HeldItems

variable {Item : Type*} {held : Nat → Item} {parties one : Nat} {items : Finset Item}

def HeldByOther (held : Nat → Item) (parties one : Nat) (item : Item) : Prop :=
  ∃ other < parties, other ≠ one ∧ held other = item

/-- Some other party holds whatever this one does. -/
def Idle (held : Nat → Item) (parties one : Nat) (items : Finset Item) : Prop :=
  ∀ party < parties, held party ∈ items → HeldByOther held parties one (held party)

theorem other_item [DecidableEq Item] (held : Nat → Item) (enough : parties ≤ items.card)
    (among : one < parties) : ∃ item ∈ items, ¬ HeldByOther held parties one item := by
  have few : (((Finset.range parties).erase one).image held).card < items.card := by
    refine Nat.lt_of_le_of_lt Finset.card_image_le ?_
    rw [Finset.card_erase_of_mem (Finset.mem_range.mpr among), Finset.card_range]
    omega
  obtain ⟨item, member, free⟩ := Finset.exists_mem_notMem_of_card_lt_card few
  refine ⟨item, member, fun ⟨other, within, different, same⟩ => free ?_⟩
  exact Finset.mem_image.mpr
    ⟨other, Finset.mem_erase.mpr ⟨different, Finset.mem_range.mpr within⟩, same⟩

theorem idle_party (held : Nat → Item) (few : items.card < parties) :
    ∃ one < parties, Idle held parties one items := by
  by_cases all : ∀ party < parties, held party ∈ items
  · have room : items.card < (Finset.range parties).card := by rwa [Finset.card_range]
    obtain ⟨one, among, twin, amongToo, different, same⟩ :=
      Finset.exists_ne_map_eq_of_card_lt_of_maps_to room (f := held)
        fun party member => all party (Finset.mem_range.mp member)
    refine ⟨one, Finset.mem_range.mp among, fun party within _ => ?_⟩
    by_cases itself : party = one
    · rw [itself]
      exact ⟨twin, Finset.mem_range.mp amongToo, different.symm, same.symm⟩
    · exact ⟨party, within, itself, rfl⟩
  · obtain ⟨one, among, nothing⟩ : ∃ one < parties, held one ∉ items := by simpa using all
    refine ⟨one, among, fun party within member => ⟨party, within, ?_, rfl⟩⟩
    rintro rfl
    exact nothing member

/-- The items that no party holds. -/
def unheld [DecidableEq Item] (held : Nat → Item) (parties : Nat) (items : Finset Item) :
    Finset Item :=
  items \ (Finset.range parties).image held

theorem mem_unheld [DecidableEq Item] {item : Item} :
    item ∈ unheld held parties items ↔ item ∈ items ∧ ∀ party < parties, held party ≠ item := by
  simp [unheld]

/-- An idle party that takes an unheld item. -/
theorem unheld_falls [DecidableEq Item] {item : Item} (among : one < parties)
    (idle : Idle held parties one items) (free : item ∈ unheld held parties items) :
    (unheld (Function.update held one item) parties items).card <
      (unheld held parties items).card := by
  refine Finset.card_lt_card (Finset.ssubset_iff_subset_ne.mpr ⟨?_, ?_⟩)
  · intro other member
    obtain ⟨listed, nobody⟩ := mem_unheld.mp member
    refine mem_unheld.mpr ⟨listed, ?_⟩
    rintro party within rfl
    -- what this party gives up, another one holds as well
    obtain ⟨twin, amongToo, different, same⟩ := idle party within listed
    have := nobody twin amongToo
    rw [Function.update_of_ne different] at this
    exact this same
  · intro same
    rw [← same] at free
    have := (mem_unheld.mp free).2 one among
    rw [Function.update_self] at this
    exact this rfl

/-- Where every item is held, an idle party finds all of them held by others. -/
theorem all_held_by_others [DecidableEq Item] (idle : Idle held parties one items)
    (none_ : unheld held parties items = ∅) :
    ∀ item ∈ items, HeldByOther held parties one item := by
  intro item member
  by_cases somebody : ∃ party < parties, held party = item
  · obtain ⟨party, within, rfl⟩ := somebody
    exact idle party within member
  · have free : item ∈ unheld held parties items :=
      mem_unheld.mpr ⟨member, fun party within same => somebody ⟨party, within, same⟩⟩
    rw [none_] at free
    exact absurd free (Finset.notMem_empty item)

end PteSysbench.HeldItems
