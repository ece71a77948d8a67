import Mathlib.Data.List.Chain
import Mathlib.Data.List.GetD
import Mathlib.Data.List.Nodup
import Mathlib.Logic.Function.Basic

/-!
Doubly linked circular lists whose head is a node without an element. `Linked` says that
the two pointers of every node are those of the cycle from the head through the items.
-/

namespace PteSysbench.CircularLists

structure Links (Node : Type*) where
  next : Node → Node
  prev : Node → Node

variable {Node : Type*}

/-! The nodes in order. -/
section Nodes
variable {head : Node} {items : List Node}

/-- The head, the items, and the head again. -/
def nodeAt (head : Node) (items : List Node) (i : Nat) : Node := (head :: items).getD i head

@[simp] theorem node_at_zero : nodeAt head items 0 = head := rfl

theorem node_at_past {i : Nat} (past : items.length < i) : nodeAt head items i = head :=
  List.getD_eq_default _ _ past

theorem node_at_mem {i : Nat} (inside : i ≤ items.length) :
    nodeAt head items i ∈ head :: items := by
  rw [nodeAt, List.getD_eq_getElem _ _ (Nat.lt_succ_of_le inside)]
  exact List.getElem_mem _

theorem exists_node_at {node : Node} (member : node ∈ head :: items) :
    ∃ i ≤ items.length, nodeAt head items i = node := by
  obtain ⟨i, inside, rfl⟩ := List.mem_iff_getElem.mp member
  exact ⟨i, Nat.le_of_lt_succ inside, List.getD_eq_getElem _ _ inside⟩

theorem node_at_inj (distinct : (head :: items).Nodup) {i j : Nat} (first : i ≤ items.length)
    (second : j ≤ items.length) (same : nodeAt head items i = nodeAt head items j) : i = j := by
  rw [nodeAt, nodeAt, List.getD_eq_getElem _ _ (Nat.lt_succ_of_le first),
    List.getD_eq_getElem _ _ (Nat.lt_succ_of_le second)] at same
  exact distinct.getElem_inj_iff.mp same
end Nodes

structure Linked (links : Links Node) (head : Node) (items : List Node) : Prop where
  distinct : (head :: items).Nodup
  next : ∀ i ≤ items.length, links.next (nodeAt head items i) = nodeAt head items (i + 1)
  prev : ∀ i ≤ items.length, links.prev (nodeAt head items (i + 1)) = nodeAt head items i

section Rounds
variable {links : Links Node} {head : Node} {items : List Node}

theorem last_of_head (linked : Linked links head items) :
    links.prev head = nodeAt head items items.length := by
  have back := linked.prev items.length (Nat.le_refl _)
  rwa [node_at_past (Nat.lt_succ_self _)] at back

theorem linked_walk (linked : Linked links head items) {i : Nat} (inside : i ≤ items.length + 1) :
    links.next^[i] head = nodeAt head items i := by
  induction i with
  | zero => rfl
  | succ i ih =>
      have earlier : i ≤ items.length := Nat.le_of_succ_le_succ inside
      rw [Function.iterate_succ_apply', ih (Nat.le_succ_of_le earlier), linked.next i earlier]

/-- The pointers lead through the items in order, and from the last one back to the head;
each kind of pointer undoes the other. -/
structure GoesRound (links : Links Node) (head : Node) (items : List Node) : Prop where
  through : (List.range items.length).map (fun i => links.next^[i + 1] head) = items
  around : links.next^[items.length + 1] head = head
  inverse : ∀ node ∈ head :: items,
    links.prev (links.next node) = node ∧ links.next (links.prev node) = node

theorem linked_round (linked : Linked links head items) :
    (List.range items.length).map (fun i => links.next^[i + 1] head) = items ∧
      links.next^[items.length + 1] head = head := by
  constructor
  · refine List.ext_getElem (by simp) fun i early late => ?_
    rw [List.getElem_map, List.getElem_range, linked_walk linked (Nat.succ_le_succ (by omega)),
      nodeAt, List.getD_cons_succ, List.getD_eq_getElem _ _ late]
  · rw [linked_walk linked (Nat.le_refl _), node_at_past (Nat.lt_succ_self _)]

theorem linked_inverse (linked : Linked links head items) {node : Node}
    (member : node ∈ head :: items) :
    links.prev (links.next node) = node ∧ links.next (links.prev node) = node := by
  obtain ⟨i, inside, rfl⟩ := exists_node_at member
  refine ⟨by rw [linked.next i inside, linked.prev i inside], ?_⟩
  cases i with
  | zero =>
      rw [node_at_zero, last_of_head linked, linked.next items.length (Nat.le_refl _),
        node_at_past (Nat.lt_succ_self _)]
  | succ i =>
      have before := Nat.le_of_succ_le inside
      rw [linked.prev i before, linked.next i before]

theorem linked_goes_round (linked : Linked links head items) : GoesRound links head items :=
  { through := (linked_round linked).1
    around := (linked_round linked).2
    inverse := fun _ member => linked_inverse linked member }

theorem linked_neighbours (linked : Linked links head items) {node : Node}
    (member : node ∈ head :: items) :
    links.next node ∈ head :: items ∧ links.prev node ∈ head :: items := by
  obtain ⟨i, inside, rfl⟩ := exists_node_at member
  constructor
  · rw [linked.next i inside]
    rcases Nat.lt_or_ge i items.length with within | last
    · exact node_at_mem within
    · rw [node_at_past (Nat.lt_succ_of_le last)]
      exact List.mem_cons_self
  · cases i with
    | zero =>
        rw [node_at_zero, last_of_head linked]
        exact node_at_mem (Nat.le_refl _)
    | succ i =>
        rw [linked.prev i (Nat.le_of_succ_le inside)]
        exact node_at_mem (Nat.le_of_succ_le inside)
end Rounds

/-! The pointers as a chain of joined nodes, of which a part can be replaced. -/
section Chains
variable {links kept : Links Node} {head first last : Node}
  {items before old middle after front back : List Node}

def Joined (links : Links Node) (a b : Node) : Prop := links.next a = b ∧ links.prev b = a

instance [DecidableEq Node] (links : Links Node) : DecidableRel (Joined links) :=
  fun a b => inferInstanceAs (Decidable (links.next a = b ∧ links.prev b = a))

theorem node_at_round {i : Nat} (inside : i < (head :: (items ++ [head])).length) :
    (head :: (items ++ [head]))[i] = nodeAt head items i := by
  have same : head :: (items ++ [head]) = (head :: items) ++ [head] := rfl
  rcases Nat.lt_or_ge i (head :: items).length with within | outside
  · rw [nodeAt, List.getD_eq_getElem _ _ within, List.getElem_of_eq same,
      List.getElem_append_left within]
  · rw [nodeAt, List.getD_eq_default _ _ outside, List.getElem_of_eq same,
      List.getElem_append_right outside, List.getElem_singleton]

theorem linked_iff_chain : Linked links head items ↔
    (head :: items).Nodup ∧ (head :: (items ++ [head])).IsChain (Joined links) := by
  have length : (head :: (items ++ [head])).length = items.length + 1 + 1 := by simp
  rw [List.isChain_iff_getElem]
  constructor
  · intro linked
    refine ⟨linked.distinct, fun i inside => ?_⟩
    rw [node_at_round, node_at_round]
    exact ⟨linked.next i (by omega), linked.prev i (by omega)⟩
  · rintro ⟨distinct, joined⟩
    refine ⟨distinct, fun i inside => ?_, fun i inside => ?_⟩
    · have both := joined i (by omega)
      rw [node_at_round, node_at_round] at both
      exact both.1
    · have both := joined i (by omega)
      rw [node_at_round, node_at_round] at both
      exact both.2

instance [DecidableEq Node] (links : Links Node) (head : Node) (items : List Node) :
    Decidable (Linked links head items) := decidable_of_iff _ linked_iff_chain.symm

/-- Of the last node only the pointer back counts, of the first one only the one forward. -/
theorem chain_keeps {nodes : List Node} (chain : nodes.IsChain (Joined links))
    (next : ∀ a ∈ nodes.dropLast, kept.next a = links.next a)
    (prev : ∀ b ∈ nodes.tail, kept.prev b = links.prev b) : nodes.IsChain (Joined kept) := by
  induction nodes with
  | nil => exact List.isChain_nil
  | cons a rest ih =>
      cases rest with
      | nil => exact List.isChain_singleton a
      | cons b rest =>
          obtain ⟨joined, later⟩ := List.isChain_cons_cons.mp chain
          refine List.isChain_cons_cons.mpr ⟨⟨?_, ?_⟩, ih later ?_ ?_⟩
          · rw [next a List.mem_cons_self, joined.1]
          · rw [prev b List.mem_cons_self, joined.2]
          · exact fun c member => next c (List.mem_cons_of_mem a member)
          · exact fun c member => prev c (List.mem_cons_of_mem b member)

/-- Some items give way to others between two nodes that stay. -/
theorem linked_splice (linked : Linked links head (before ++ old ++ after))
    (distinct : (head :: (before ++ middle ++ after)).Nodup)
    (left : head :: before = front ++ [last]) (right : after ++ [head] = first :: back)
    (next : ∀ a ∈ front ++ after, kept.next a = links.next a)
    (prev : ∀ b ∈ before ++ back, kept.prev b = links.prev b)
    (joined : (last :: (middle ++ [first])).IsChain (Joined kept)) :
    Linked kept head (before ++ middle ++ after) := by
  -- the round as what stays on the left, the gap with its two ends, and what stays on the right
  have whole : ∀ between, head :: (before ++ between ++ after ++ [head]) =
      front ++ last :: (between ++ first :: back) := by
    intro between
    rw [List.append_assoc, right, List.append_assoc, ← List.cons_append, left,
      List.append_assoc, List.singleton_append]
  have chain := (linked_iff_chain.mp linked).2
  rw [whole, List.isChain_split] at chain
  have start := chain.1
  have finish := (List.isChain_split.mp (List.cons_append ▸ chain.2 :
    (last :: old ++ first :: back).IsChain (Joined links))).2
  have renewed : (last :: middle ++ first :: back).IsChain (Joined kept) →
      (head :: (before ++ middle ++ after ++ [head])).IsChain (Joined kept) := fun later => by
    rw [whole]
    refine List.isChain_split.mpr ⟨chain_keeps start (fun a member => ?_) fun b member => ?_, later⟩
    · rw [List.dropLast_concat] at member
      exact next a (List.mem_append_left after member)
    · rw [← left] at member
      exact prev b (List.mem_append_left back member)
  refine linked_iff_chain.mpr ⟨distinct, renewed (List.isChain_split.mpr ⟨joined,
    chain_keeps finish (fun a member => ?_) fun b member => ?_⟩)⟩
  · rw [← right, List.dropLast_concat] at member
    exact next a (List.mem_append_right front member)
  · exact prev b (List.mem_append_right before member)

def Unmoved (links kept : Links Node) (node : Node) : Prop :=
  kept.next node = links.next node ∧ kept.prev node = links.prev node

/-- A list whose own nodes keep their pointers stays. -/
theorem linked_keeps (linked : Linked links head items)
    (unmoved : ∀ node ∈ head :: items, Unmoved links kept node) : Linked kept head items := by
  obtain ⟨distinct, chain⟩ := linked_iff_chain.mp linked
  refine linked_iff_chain.mpr ⟨distinct, chain_keeps chain (fun a member => ?_) ?_⟩
  · rw [← List.cons_append, List.dropLast_concat] at member
    exact (unmoved a member).1
  · intro b member
    refine (unmoved b ?_).2
    rcases List.mem_append.mp member with inside | single
    · exact List.mem_cons_of_mem head inside
    · exact List.mem_singleton.mp single ▸ List.mem_cons_self

/-- The two neighbours of an item. -/
theorem linked_around {item : Node} (linked : Linked links head (before ++ item :: after))
    (left : head :: before = front ++ [last]) (right : after ++ [head] = first :: back) :
    links.next item = first ∧ links.prev item = last := by
  have chain := (linked_iff_chain.mp linked).2
  have whole : head :: (before ++ item :: after ++ [head]) =
      front ++ last :: item :: first :: back := by
    rw [List.append_assoc, List.cons_append, right, ← List.cons_append, left, List.append_assoc,
      List.singleton_append]
  rw [whole, List.isChain_split, List.isChain_cons_cons, List.isChain_cons_cons] at chain
  exact ⟨chain.2.2.1.1, chain.2.1.2⟩

theorem linked_last (linked : Linked links head items)
    (left : head :: items = front ++ [last]) : links.prev head = last := by
  have chain := (linked_iff_chain.mp linked).2
  rw [← List.cons_append, left, List.append_assoc] at chain
  exact (List.isChain_cons_cons.mp (List.isChain_split.mp chain).2).1.2

theorem linked_first (linked : Linked links head items)
    (right : items ++ [head] = first :: back) : links.next head = first := by
  have chain := (linked_iff_chain.mp linked).2
  rw [right] at chain
  exact (List.isChain_cons_cons.mp chain).1.1

/-- The pointers to the ends of a gap are those of no other node. -/
theorem apart_from_ends (distinct : (head :: (before ++ after)).Nodup)
    (left : head :: before = front ++ [last]) (right : after ++ [head] = first :: back) :
    (∀ a ∈ front ++ after, a ∈ head :: (before ++ after) ∧ a ≠ last) ∧
      ∀ b ∈ before ++ back, b ∈ head :: (before ++ after) ∧ b ≠ first := by
  -- the round read from the gap on, where the head comes in the middle
  have around : (first :: back ++ before).Nodup := by
    have moved : (head :: (before ++ after)).Perm (after ++ head :: before) :=
      (List.perm_append_comm : (head :: before ++ after).Perm _)
    rw [← right, List.append_assoc]
    exact moved.nodup_iff.mp distinct
  have along : (front ++ [last] ++ after).Nodup := left ▸ distinct
  refine ⟨fun a member => ⟨?_, ?_⟩, fun b member => ⟨?_, ?_⟩⟩
  · rw [← List.cons_append, left]
    rcases List.mem_append.mp member with early | late
    · exact List.mem_append_left after (List.mem_append_left [last] early)
    · exact List.mem_append_right _ late
  · rintro rfl
    rw [List.append_assoc, List.singleton_append, List.nodup_middle] at along
    exact (List.nodup_cons.mp along).1 member
  · rcases List.mem_append.mp member with early | late
    · exact List.mem_cons_of_mem head (List.mem_append_left after early)
    · have inside : b ∈ after ++ [head] := right ▸ List.mem_cons_of_mem first late
      rcases List.mem_append.mp inside with later | single
      · exact List.mem_cons_of_mem head (List.mem_append_right before later)
      · exact List.mem_singleton.mp single ▸ List.mem_cons_self
  · rintro rfl
    refine (List.nodup_cons.mp around).1 ?_
    rcases List.mem_append.mp member with early | late
    · exact List.mem_append_right back early
    · exact List.mem_append_left before late

theorem exists_last (head : Node) (before : List Node) :
    ∃ front last, head :: before = front ++ [last] :=
  ⟨_, _, (List.dropLast_append_getLast (List.cons_ne_nil head before)).symm⟩

theorem exists_first (head : Node) (after : List Node) :
    ∃ first back, after ++ [head] = first :: back :=
  List.exists_cons_of_ne_nil (List.append_ne_nil_of_right_ne_nil after (List.cons_ne_nil head []))

theorem first_eq (right : after ++ [head] = first :: back) : first = after.headD head := by
  cases after with
  | nil => exact (List.cons.inj right).1.symm
  | cons _ _ => exact (List.cons.inj right).1.symm

theorem next_of_head (linked : Linked links head items) : links.next head = items.headD head := by
  obtain ⟨first, back, right⟩ := exists_first head items
  rw [linked_first linked right, first_eq right]

theorem next_of_item {item : Node} (linked : Linked links head (before ++ item :: after)) :
    links.next item = after.headD head := by
  obtain ⟨front, last, left⟩ := exists_last head before
  obtain ⟨first, back, right⟩ := exists_first head after
  rw [(linked_around linked left right).1, first_eq right]

end Chains

/-! Lists in the making. -/
section Lists
variable [DecidableEq Node]

def Links.init (links : Links Node) (head : Node) : Links Node :=
  { next := Function.update links.next head head
    prev := Function.update links.prev head head }

/-- The four assignments in order: the last one goes through the pointer of the first. -/
def Links.addTail (links : Links Node) (item head : Node) : Links Node :=
  let links := { links with prev := Function.update links.prev item (links.prev head) }
  let links := { links with next := Function.update links.next item head }
  let links := { links with prev := Function.update links.prev head item }
  { links with next := Function.update links.next (links.prev item) item }

def Links.add (links : Links Node) (item head : Node) : Links Node :=
  let links := { links with next := Function.update links.next item (links.next head) }
  let links := { links with prev := Function.update links.prev item head }
  let links := { links with next := Function.update links.next head item }
  { links with prev := Function.update links.prev (links.next item) item }

def Links.delete (links : Links Node) (old : Node) : Links Node :=
  let links := { links with prev := Function.update links.prev (links.next old) (links.prev old) }
  { links with next := Function.update links.next (links.prev old) (links.next old) }

def Links.replace (links : Links Node) (item old : Node) : Links Node :=
  let links := { links with next := Function.update links.next item (links.next old) }
  let links := { links with prev := Function.update links.prev item (links.prev old) }
  let links := { links with prev := Function.update links.prev (links.next item) item }
  { links with next := Function.update links.next (links.prev item) item }

def Links.isEmpty (links : Links Node) (head : Node) : Bool := links.next head = head

/-- An item between two nodes that were neighbours or become so. -/
def Links.between (links : Links Node) (last item first : Node) : Links Node :=
  { next := Function.update (Function.update links.next item first) last item
    prev := Function.update (Function.update links.prev item last) first item }

variable {links : Links Node} {head item other first last : Node}
  {items before old after front back : List Node}

theorem init_linked (links : Links Node) (head : Node) : Linked (links.init head) head [] :=
  linked_iff_chain.mpr ⟨List.nodup_singleton head, List.isChain_pair.mpr
    ⟨Function.update_self .., Function.update_self ..⟩⟩

theorem between_linked (linked : Linked links head (before ++ old ++ after))
    (fresh : item ∉ head :: (before ++ after)) (left : head :: before = front ++ [last])
    (right : after ++ [head] = first :: back) :
    Linked (links.between last item first) head (before ++ [item] ++ after) := by
  have kept : (head :: (before ++ after)).Sublist (head :: (before ++ old ++ after)) :=
    ((List.sublist_append_left before old).append_right after).cons_cons head
  have distinct := kept.nodup linked.distinct
  obtain ⟨forward, backward⟩ := apart_from_ends distinct left right
  have atFirst : first ∈ head :: (before ++ after) := by
    have inside : first ∈ after ++ [head] := right ▸ List.mem_cons_self
    rcases List.mem_append.mp inside with later | single
    · exact List.mem_cons_of_mem head (List.mem_append_right before later)
    · exact List.mem_singleton.mp single ▸ List.mem_cons_self
  have atLast : last ∈ head :: (before ++ after) := by
    rw [← List.cons_append, left]
    exact List.mem_append_left after (List.mem_append_right front (List.mem_singleton.mpr rfl))
  have notFirst : item ≠ first := fun same => fresh (same ▸ atFirst)
  have notLast : item ≠ last := fun same => fresh (same ▸ atLast)
  refine linked_splice linked ?_ left right (fun a member => ?_) (fun b member => ?_) ?_
  · rw [← List.cons_append, ← List.cons_append, List.append_assoc, List.singleton_append,
      List.nodup_middle]
    exact List.nodup_cons.mpr ⟨fresh, distinct⟩
  · have notItem : a ≠ item := fun same => fresh (same ▸ (forward a member).1)
    simp only [Links.between, Function.update_of_ne (forward a member).2,
      Function.update_of_ne notItem]
  · have notItem : b ≠ item := fun same => fresh (same ▸ (backward b member).1)
    simp only [Links.between, Function.update_of_ne (backward b member).2,
      Function.update_of_ne notItem]
  · refine List.isChain_cons_cons.mpr ⟨⟨?_, ?_⟩, List.isChain_pair.mpr ⟨?_, ?_⟩⟩
    · exact Function.update_self ..
    · simp only [Links.between, Function.update_of_ne notFirst, Function.update_self]
    · simp only [Links.between, Function.update_of_ne notLast, Function.update_self]
    · exact Function.update_self ..

theorem add_tail_eq (apart : item ≠ head) :
    links.addTail item head = links.between (links.prev head) item head := by
  simp only [Links.addTail, Links.between, Function.update_of_ne apart, Function.update_self]

theorem add_eq (apart : item ≠ head) :
    links.add item head = links.between head item (links.next head) := by
  simp only [Links.add, Links.between, Function.update_of_ne apart, Function.update_self]

theorem replace_eq (apart : item ≠ links.next other) :
    links.replace item other = links.between (links.prev other) item (links.next other) := by
  simp only [Links.replace, Links.between, Function.update_of_ne apart, Function.update_self]

/-- Also for an item whose neighbour is itself. -/
theorem delete_eq (links : Links Node) (item : Node) :
    links.delete item =
      { next := Function.update links.next (links.prev item) (links.next item)
        prev := Function.update links.prev (links.next item) (links.prev item) } := by
  by_cases same : item = links.next item
  · simp only [Links.delete, ← same, Function.update_self]
  · simp only [Links.delete, Function.update_of_ne same]

/-- A new item comes between the last one and the head. -/
theorem add_tail_linked (linked : Linked links head items) (fresh : item ∉ head :: items) :
    Linked (links.addTail item head) head (items ++ [item]) := by
  have apart : item ≠ head := fun same => fresh (same ▸ List.mem_cons_self)
  obtain ⟨front, last, left⟩ := exists_last head items
  have whole : Linked links head (items ++ [] ++ []) := by rwa [List.append_nil, List.append_nil]
  have built := between_linked whole (by rwa [List.append_nil]) left rfl
  rwa [List.append_nil, ← linked_last linked left, ← add_tail_eq apart] at built

/-- A new item comes between the head and the first one. -/
theorem add_linked (linked : Linked links head items) (fresh : item ∉ head :: items) :
    Linked (links.add item head) head (item :: items) := by
  have apart : item ≠ head := fun same => fresh (same ▸ List.mem_cons_self)
  obtain ⟨first, back, right⟩ := exists_first head items
  have whole : Linked links head ([] ++ [] ++ items) := linked
  have built := between_linked whole fresh (List.nil_append [head]).symm right
  rwa [← linked_first linked right, ← add_eq apart] at built

theorem replace_linked (linked : Linked links head (before ++ other :: after))
    (fresh : item ∉ head :: (before ++ other :: after)) :
    Linked (links.replace item other) head (before ++ item :: after) := by
  obtain ⟨front, last, left⟩ := exists_last head before
  obtain ⟨first, back, right⟩ := exists_first head after
  obtain ⟨next, prev⟩ := linked_around linked left right
  have kept : (head :: (before ++ after)).Sublist (head :: (before ++ other :: after)) :=
    ((List.sublist_cons_self other after).append_left before).cons_cons head
  have member : other ∈ before ++ other :: after :=
    List.mem_append_right before List.mem_cons_self
  have apart : item ≠ links.next other := fun same =>
    fresh (same ▸ (linked_neighbours linked (List.mem_cons_of_mem head member)).1)
  rw [List.append_cons] at linked
  have built := between_linked linked (fun member => fresh (kept.subset member)) left right
  rw [replace_eq apart, next, prev]
  rwa [List.append_assoc] at built

theorem delete_linked (linked : Linked links head (before ++ item :: after)) :
    Linked (links.delete item) head (before ++ after) := by
  obtain ⟨front, last, left⟩ := exists_last head before
  obtain ⟨first, back, right⟩ := exists_first head after
  obtain ⟨next, prev⟩ := linked_around linked left right
  have kept : (head :: (before ++ after)).Sublist (head :: (before ++ item :: after)) :=
    ((List.sublist_cons_self item after).append_left before).cons_cons head
  have distinct := kept.nodup linked.distinct
  obtain ⟨forward, backward⟩ := apart_from_ends distinct left right
  rw [List.append_cons] at linked
  rw [delete_eq, next, prev]
  have renewed : (head :: (before ++ [] ++ after)).Nodup := by rwa [List.append_nil]
  rw [← List.append_nil before]
  refine linked_splice linked renewed left right (fun a member => ?_) (fun b member => ?_) ?_
  · exact Function.update_of_ne (forward a member).2 ..
  · exact Function.update_of_ne (backward b member).2 ..
  · exact List.isChain_pair.mpr ⟨Function.update_self .., Function.update_self ..⟩

/-! Nodes outside an operation. -/

theorem between_unmoved {node : Node} (notLast : node ≠ last) (notItem : node ≠ item)
    (notFirst : node ≠ first) : Unmoved links (links.between last item first) node := by
  constructor
  · simp only [Links.between, Function.update_of_ne notLast, Function.update_of_ne notItem]
  · simp only [Links.between, Function.update_of_ne notFirst, Function.update_of_ne notItem]

theorem init_unmoved {node : Node} (notHead : node ≠ head) :
    Unmoved links (links.init head) node :=
  ⟨Function.update_of_ne notHead .., Function.update_of_ne notHead ..⟩

theorem add_unmoved {node : Node} (linked : Linked links head items) (fresh : item ∉ head :: items)
    (outside : node ∉ item :: head :: items) : Unmoved links (links.add item head) node := by
  obtain ⟨notItem, outside⟩ := not_or.mp (mt List.mem_cons.mpr outside)
  have apart : item ≠ head := fun same => fresh (same ▸ List.mem_cons_self)
  rw [add_eq apart]
  refine between_unmoved (fun same => ?_) notItem (fun same => ?_)
  · exact outside (same ▸ List.mem_cons_self)
  · exact outside (same ▸ (linked_neighbours linked List.mem_cons_self).1)

theorem add_tail_unmoved {node : Node} (linked : Linked links head items)
    (fresh : item ∉ head :: items) (outside : node ∉ item :: head :: items) :
    Unmoved links (links.addTail item head) node := by
  obtain ⟨notItem, outside⟩ := not_or.mp (mt List.mem_cons.mpr outside)
  have apart : item ≠ head := fun same => fresh (same ▸ List.mem_cons_self)
  rw [add_tail_eq apart]
  refine between_unmoved (fun same => ?_) notItem (fun same => ?_)
  · exact outside (same ▸ (linked_neighbours linked List.mem_cons_self).2)
  · exact outside (same ▸ List.mem_cons_self)

theorem delete_unmoved {node : Node} (linked : Linked links head items) (member : item ∈ items)
    (outside : node ∉ head :: items) : Unmoved links (links.delete item) node := by
  obtain ⟨next, prev⟩ := linked_neighbours linked (List.mem_cons_of_mem head member)
  rw [delete_eq]
  refine ⟨Function.update_of_ne (fun same => ?_) .., Function.update_of_ne (fun same => ?_) ..⟩
  · exact outside (same ▸ prev)
  · exact outside (same ▸ next)

theorem replace_unmoved {node : Node} (linked : Linked links head items) (member : other ∈ items)
    (fresh : item ∉ head :: items) (outside : node ∉ item :: head :: items) :
    Unmoved links (links.replace item other) node := by
  obtain ⟨notItem, outside⟩ := not_or.mp (mt List.mem_cons.mpr outside)
  obtain ⟨next, prev⟩ := linked_neighbours linked (List.mem_cons_of_mem head member)
  have apart : item ≠ links.next other := fun same => fresh (same ▸ next)
  rw [replace_eq apart]
  refine between_unmoved (fun same => ?_) notItem (fun same => ?_)
  · exact outside (same ▸ prev)
  · exact outside (same ▸ next)

theorem empty_iff (linked : Linked links head items) : links.isEmpty head = true ↔ items = [] := by
  have first := linked.next 0 (Nat.zero_le _)
  rw [node_at_zero] at first
  rw [Links.isEmpty, decide_eq_true_eq, first]
  constructor
  · intro same
    by_contra some_
    have inside : 0 + 1 ≤ items.length := List.length_pos_iff.mpr some_
    exact absurd (node_at_inj linked.distinct inside (Nat.zero_le _) same) (by decide)
  · rintro rfl
    rfl
end Lists
end PteSysbench.CircularLists
