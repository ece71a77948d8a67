import PteSysbench.CircularLists

/-!
Several circular lists in one heap, no two of which share a node. What the operations do
is said of the items, list by list; the pointers follow.
-/

namespace PteSysbench.ListFamilies

open CircularLists

variable {Node : Type*}

/-- The items behind each head. -/
abbrev Family (Node : Type*) := Node → Option (List Node)

def Used (lists : Family Node) (node : Node) : Prop :=
  ∃ head items, lists head = some items ∧ node ∈ head :: items

structure Represents (links : Links Node) (lists : Family Node) : Prop where
  linked : ∀ {head items}, lists head = some items → Linked links head items
  apart : ∀ {head items other more}, lists head = some items → lists other = some more →
    head ≠ other → (head :: items).Disjoint (other :: more)

theorem nothing_represented (links : Links Node) : Represents links fun _ => none :=
  ⟨nofun, nofun⟩

theorem apart_with_fresh {links : Links Node} {lists : Family Node} {head item : Node}
    {items : List Node} (represents : Represents links lists) (present : lists head = some items)
    (fresh : ¬ Used lists item) (other : Node) (more : List Node)
    (there : lists other = some more) (different : head ≠ other) :
    (item :: head :: items).Disjoint (other :: more) := by
  intro node member inOther
  rcases List.mem_cons.mp member with rfl | member
  · exact fresh ⟨other, more, there, inOther⟩
  · exact represents.apart present there different member inOther

inductive Op (Node : Type*) where
  | init (head : Node)
  | add (item head : Node)
  | addTail (item head : Node)
  | delete (old : Node)
  | replace (item old : Node)
  deriving DecidableEq, Repr

variable [DecidableEq Node]

def Op.apply (links : Links Node) : Op Node → Links Node
  | .init head => links.init head
  | .add item head => links.add item head
  | .addTail item head => links.addTail item head
  | .delete old => links.delete old
  | .replace item old => links.replace item old

/-- Which list an operation changes, and into what. New items are in no list. -/
inductive Change (lists : Family Node) : Op Node → Node → List Node → Prop
  | init {head : Node} (noItem : ∀ other items, lists other = some items → head ∉ items) :
      Change lists (.init head) head []
  | add {item head : Node} {items : List Node} (present : lists head = some items)
      (fresh : ¬ Used lists item) : Change lists (.add item head) head (item :: items)
  | addTail {item head : Node} {items : List Node} (present : lists head = some items)
      (fresh : ¬ Used lists item) : Change lists (.addTail item head) head (items ++ [item])
  | delete {old head : Node} {before after : List Node}
      (present : lists head = some (before ++ old :: after)) :
      Change lists (.delete old) head (before ++ after)
  | replace {item old head : Node} {before after : List Node}
      (present : lists head = some (before ++ old :: after)) (fresh : ¬ Used lists item) :
      Change lists (.replace item old) head (before ++ item :: after)

/-- A sequence of operations; every other list has the items it had. -/
inductive Runs : Family Node → List (Op Node) → Family Node → Prop
  | done (lists : Family Node) : Runs lists [] lists
  | step {lists final : Family Node} {op : Op Node} {rest : List (Op Node)} {head : Node}
      {items : List Node} (change : Change lists op head items)
      (later : Runs (Function.update lists head (some items)) rest final) :
      Runs lists (op :: rest) final

section Steps
variable {links kept : Links Node} {lists : Family Node} {head : Node}
  {changed touched : List Node}

/-- Only the list of one head moves, within nodes that no other list has. -/
theorem represents_update (represents : Represents links lists)
    (linked : Linked kept head changed) (inside : head :: changed ⊆ touched)
    (unmoved : ∀ node, node ∉ touched → Unmoved links kept node)
    (apart : ∀ other more, lists other = some more → head ≠ other →
      touched.Disjoint (other :: more)) :
    Represents kept (Function.update lists head (some changed)) := by
  -- a list afterwards is the one changed, or was there before under another head
  have split : ∀ {other more}, Function.update lists head (some changed) other = some more →
      head = other ∧ changed = more ∨ head ≠ other ∧ lists other = some more := by
    intro other more present
    by_cases same : other = head
    · subst same
      rw [Function.update_self] at present
      exact .inl ⟨rfl, Option.some.inj present⟩
    · rw [Function.update_of_ne same] at present
      exact .inr ⟨Ne.symm same, present⟩
  constructor
  · intro other more present
    rcases split present with ⟨rfl, rfl⟩ | ⟨different, present⟩
    · exact linked
    · refine linked_keeps (represents.linked present) fun node member => unmoved node ?_
      exact fun inTouched => apart other more present different inTouched member
  · intro first firstItems second secondItems left right different
    rcases split left with ⟨rfl, rfl⟩ | ⟨firstOther, left⟩
    · rcases split right with ⟨rfl, rfl⟩ | ⟨secondOther, right⟩
      · exact absurd rfl different
      · exact fun node member => apart second secondItems right secondOther (inside member)
    · rcases split right with ⟨rfl, rfl⟩ | ⟨secondOther, right⟩
      · exact fun node member other =>
          apart first firstItems left firstOther (inside other) member
      · exact represents.apart left right different

theorem change_represents {op : Op Node} (represents : Represents links lists)
    (change : Change lists op head changed) :
    Represents (op.apply links) (Function.update lists head (some changed)) := by
  cases change with
  | init noItem =>
      refine represents_update represents (init_linked links head) (List.Subset.refl [head])
        (fun node outside => init_unmoved (List.ne_of_not_mem_cons outside)) ?_
      intro other more present different node member inOther
      obtain rfl := List.mem_singleton.mp member
      rcases List.mem_cons.mp inOther with same | inMore
      · exact different same
      · exact noItem other more present inMore
  | add present fresh =>
      have linked := represents.linked present
      have new : _ ∉ head :: _ := fun member => fresh ⟨head, _, present, member⟩
      refine represents_update represents (add_linked linked new) ?_
        (fun node => add_unmoved linked new) (apart_with_fresh represents present fresh)
      exact (List.Perm.swap _ _ _).subset
  | addTail present fresh =>
      have linked := represents.linked present
      have new : _ ∉ head :: _ := fun member => fresh ⟨head, _, present, member⟩
      refine represents_update represents (add_tail_linked linked new) ?_
        (fun node => add_tail_unmoved linked new) (apart_with_fresh represents present fresh)
      exact (List.perm_append_comm : (head :: _ ++ [_]).Perm ([_] ++ _)).subset
  | delete present =>
      have linked := represents.linked present
      refine represents_update represents (delete_linked linked) ?_
        (fun node => delete_unmoved linked (List.mem_append_right _ List.mem_cons_self))
        fun other more there different => represents.apart present there different
      exact List.cons_subset_cons head
        ((List.sublist_cons_self _ _).append_left _).subset
  | replace present fresh =>
      have linked := represents.linked present
      have new : _ ∉ head :: _ := fun member => fresh ⟨head, _, present, member⟩
      refine represents_update represents (replace_linked linked new) ?_
        (fun node => replace_unmoved linked (List.mem_append_right _ List.mem_cons_self) new)
        (apart_with_fresh represents present fresh)
      intro node member
      simp only [List.mem_cons, List.mem_append] at member ⊢
      tauto

theorem run_represents {ops : List (Op Node)} {final : Family Node}
    (represents : Represents links lists) (runs : Runs lists ops final) :
    Represents (ops.foldl Op.apply links) final := by
  induction runs generalizing links with
  | done lists => exact represents
  | step change later ih => exact ih (change_represents represents change)
end Steps
end PteSysbench.ListFamilies
