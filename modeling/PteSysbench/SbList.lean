import PteSysbench.ListFamilies
import PteSysbench.SafeIteration

/-!
The lists of sb_list.h in use: any sequence of its operations, and `free_values` and
`free_options` of sb_options.c. An address is a node; a value is known by its `listitem`,
an option by its `listitem` too, with the head of its values at another address inside it.
-/

namespace PteSysbench.SbList

open CircularLists ListFamilies SafeIteration

universe u
variable {Node Block : Type u}

/-- What is stored beside the list items: the texts, and where an option's values begin. -/
structure Objects (Node Block : Type u) where
  data : Node → Option Block
  name : Node → Option Block
  values : Node → Node

/-- `texts` is history: the texts freed, in order. -/
structure Memory (Node Block : Type u) where
  heap : Heap Node
  texts : List Block

def Memory.freeText (memory : Memory Node Block) : Option Block → Memory Node Block
  | none => memory
  | some text => { memory with texts := memory.texts ++ [text] }

@[simp] theorem free_text_heap (memory : Memory Node Block) (text : Option Block) :
    (memory.freeText text).heap = memory.heap := by
  cases text with
  | none => rfl
  | some text => rfl

@[simp] theorem free_text_texts (memory : Memory Node Block) (text : Option Block) :
    (memory.freeText text).texts = memory.texts ++ text.toList := by
  cases text with
  | none => exact (List.append_nil _).symm
  | some text => rfl

section Code
variable [DecidableEq Node] (objects : Objects Node Block)

def Memory.next (memory : Memory Node Block) : Node → Option Node := memory.heap.next

/-- A text pointer of an object, which must still be there. -/
def Memory.read (memory : Memory Node Block) (field : Node → Option Block) (node : Node) :
    Option (Option Block) :=
  if node ∈ memory.heap.freed then none else some (field node)

/-- The body of `free_values`. -/
def freeValue (cur : Node) (memory : Memory Node Block) : Option (Memory Node Block) := do
  let data ← memory.read objects.data cur
  let memory := memory.freeText data
  let heap ← memory.heap.delete cur
  let heap ← heap.free [cur]
  some { memory with heap }

/-- With the nodes that the loop visits. -/
def freeValues (fuel : Nat) (memory : Memory Node Block) :
    Option Node → Option (List Node × Memory Node Block)
  | none => some ([], memory)
  | some values => forEachSafe Memory.next (freeValue objects) values fuel memory

/-- The body of `free_options`: the item is not taken off the list. -/
def freeOption (fuel : Nat) (cur : Node) (memory : Memory Node Block) :
    Option (Memory Node Block) := do
  let name ← memory.read objects.name cur
  let (_, memory) ← freeValues objects fuel (memory.freeText name) (some (objects.values cur))
  -- the option's own item and the head of its values are one object
  let heap ← memory.heap.free [cur, objects.values cur]
  some { memory with heap }

def freeOptions (fuel : Nat) (memory : Memory Node Block) :
    Option Node → Option (List Node × Memory Node Block)
  | none => some ([], memory)
  | some options => forEachSafe Memory.next (freeOption objects fuel) options fuel memory

end Code

/-! Values. -/
section Values
variable [DecidableEq Node] {objects : Objects Node Block} {memory : Memory Node Block}
  {head : Node} {items : List Node} {fuel : Nat}

theorem read_live {field : Node → Option Block} {node : Node} (live : node ∉ memory.heap.freed) :
    memory.read field node = some (field node) := if_neg live

theorem delete_needs_live {heap left : Heap Node} {node : Node}
    (deleted : heap.delete node = some left) : node ∉ heap.freed := by
  intro gone
  rw [Heap.delete, Heap.next, if_pos gone] at deleted
  exact Option.some_ne_none left deleted.symm

/-- On the heap the body is one that keeps no node. -/
theorem free_value_purges {visited : List Node} {start memory : Memory Node Block} {node : Node}
    {left : Heap Node}
    (texts : memory.texts = start.texts ++ visited.filterMap objects.data)
    (purged : memory.heap.purge (fun _ => false) node = some left) :
    ∃ turned, freeValue objects node memory = some turned ∧ turned.heap = left ∧
      turned.texts = start.texts ++ (visited ++ [node]).filterMap objects.data := by
  obtain ⟨between, deleted, freed⟩ := Option.bind_eq_some_iff.mp purged
  refine ⟨{ heap := left, texts := (memory.freeText (objects.data node)).texts }, ?_, rfl, ?_⟩
  · simp only [freeValue, read_live (delete_needs_live deleted), Option.bind_eq_bind,
      Option.bind_some, free_text_heap, deleted, freed]
  · rw [free_text_texts, texts, List.filterMap_append, List.append_assoc]
    cases data : objects.data node with
    | none => simp [data]
    | some text => simp [data]

/-- What `free_values` leaves behind. -/
structure Emptied (objects : Objects Node Block) (head : Node) (items : List Node)
    (memory left : Memory Node Block) : Prop where
  linked : Linked left.heap.links head []
  freed : left.heap.freed = memory.heap.freed ++ items
  texts : left.texts = memory.texts ++ items.filterMap objects.data
  unmoved : ∀ node, node ∉ head :: items → Unmoved memory.heap.links left.heap.links node

theorem free_values_empties (linked : Linked memory.heap.links head items)
    (live : ∀ node ∈ head :: items, node ∉ memory.heap.freed) (enough : items.length ≤ fuel) :
    ∃ left, freeValues objects fuel memory (some head) = some (items, left) ∧
      Emptied objects head items memory left := by
  obtain ⟨left, visited, purging, texts⟩ :=
    for_each_safe_purges (fun visited (left : Memory Node Block) =>
        left.texts = memory.texts ++ visited.filterMap objects.data)
      (fun _ _ _ _ texts purged => free_value_purges texts purged) (List.append_nil _).symm linked
      live enough
  have none_ : items.filter (fun _ => false) = [] := List.filter_false items
  have all : items.filter (fun _ => !false) = items := List.filter_true items
  refine ⟨left, visited, ?_, ?_, texts, purging.unmoved⟩
  · have linked := purging.linked
    rwa [none_] at linked
  · rw [purging.freed, all]
end Values

/-! Options. -/
section Options

/-- All nodes of an option, those of its values included. -/
def nodes (objects : Objects Node Block) (values : Node → List Node) (opt : Node) : List Node :=
  opt :: objects.values opt :: values opt

/-- A list of options as the registry builds it: every node is in one place only. -/
structure Owned (objects : Objects Node Block) (values : Node → List Node)
    (memory : Memory Node Block) (head : Node) (options : List Node) : Prop where
  linked : Linked memory.heap.links head options
  lists : ∀ opt ∈ options, Linked memory.heap.links (objects.values opt) (values opt)
  distinct : (head :: options.flatMap (nodes objects values)).Nodup
  live : ∀ node ∈ head :: options.flatMap (nodes objects values), node ∉ memory.heap.freed

/-- Between two turns: what is left is as it was, and what was visited is gone. -/
structure Freeing (objects : Objects Node Block) (values : Node → List Node)
    (start : Memory Node Block) (head : Node) (options visited rest : List Node)
    (memory : Memory Node Block) : Prop where
  split : options = visited ++ rest
  live : ∀ node ∈ head :: rest.flatMap (nodes objects values), node ∉ memory.heap.freed
  freed : memory.heap.freed = start.heap.freed ++
    visited.flatMap fun opt => values opt ++ [opt, objects.values opt]
  texts : memory.texts = start.texts ++
    visited.flatMap fun opt => (objects.name opt).toList ++ (values opt).filterMap objects.data
  unmoved : ∀ node, node ∉ (visited.flatMap fun opt => objects.values opt :: values opt) →
    Unmoved start.heap.links memory.heap.links node

variable {objects : Objects Node Block} {values : Node → List Node}
  {start memory : Memory Node Block} {head opt : Node} {options visited rest : List Node}
  {fuel : Nat}

theorem mem_nodes {node : Node} (member : node ∈ objects.values opt :: values opt) :
    node ∈ nodes objects values opt := List.mem_cons_of_mem opt member

/-- The nodes of an option are neither the head nor those of another option. -/
theorem owned_apart (owned : Owned objects values start head (visited ++ opt :: rest)) :
    (head :: visited.flatMap (nodes objects values)).Disjoint (nodes objects values opt) ∧
      (nodes objects values opt).Nodup ∧
      (nodes objects values opt).Disjoint (head :: rest.flatMap (nodes objects values)) := by
  have distinct := owned.distinct
  rw [List.flatMap_append, List.flatMap_cons, List.nodup_cons, List.nodup_append',
    List.nodup_append', List.disjoint_append_right] at distinct
  obtain ⟨notHead, -, ⟨own, -, later⟩, earlier, -⟩ := distinct
  have headApart : head ∉ nodes objects values opt := fun inside =>
    notHead (List.mem_append_right _ (List.mem_append_left _ inside))
  exact ⟨List.disjoint_cons_left.mpr ⟨headApart, earlier⟩, own,
    List.disjoint_cons_right.mpr ⟨headApart, later⟩⟩

/-- The list items of the options keep their pointers to the end. -/
theorem freeing_next (owned : Owned objects values start head options)
    (freeing : Freeing objects values start head options visited rest memory) {node : Node}
    (member : node ∈ head :: options) :
    memory.heap.links.next node = start.heap.links.next node := by
  refine (freeing.unmoved node fun moved => ?_).1
  obtain ⟨opt, gone, inside⟩ := List.mem_flatMap.mp moved
  obtain ⟨before, after, rfl⟩ := List.append_of_mem gone
  have split := freeing.split
  rw [List.append_assoc, List.cons_append] at split
  subst split
  -- what moved belongs to `opt`, and the node is the head or an option: before it, it, or later
  obtain ⟨earlier, own, later⟩ := owned_apart owned
  have inNodes := mem_nodes inside
  rcases List.mem_cons.mp member with rfl | member
  · exact earlier List.mem_cons_self inNodes
  · rcases List.mem_append.mp member with inBefore | inAfter
    · exact earlier (List.mem_cons_of_mem head
        (List.mem_flatMap.mpr ⟨node, inBefore, List.mem_cons_self⟩)) inNodes
    · rcases List.mem_cons.mp inAfter with rfl | inAfter
      · exact (List.nodup_cons.mp own).1 inside
      · exact later inNodes (List.mem_cons_of_mem head
          (List.mem_flatMap.mpr ⟨node, inAfter, List.mem_cons_self⟩))

/-- The values of an option have not moved when the loop comes to it. -/
theorem freeing_values_linked (owned : Owned objects values start head (visited ++ opt :: rest))
    (freeing : Freeing objects values start head (visited ++ opt :: rest) visited (opt :: rest)
      memory) :
    Linked memory.heap.links (objects.values opt) (values opt) := by
  obtain ⟨earlier, -, -⟩ := owned_apart owned
  have inOptions : opt ∈ visited ++ opt :: rest := List.mem_append_right visited List.mem_cons_self
  refine linked_keeps (owned.lists opt inOptions) fun node member =>
    freeing.unmoved node fun inside => ?_
  obtain ⟨other, gone, inside⟩ := List.mem_flatMap.mp inside
  exact earlier (List.mem_cons_of_mem head
    (List.mem_flatMap.mpr ⟨other, gone, mem_nodes inside⟩)) (mem_nodes member)

/-- Its values are freed before the option, which is not one of them. -/
theorem option_outlives_values {freed : List Node} (own : (nodes objects values opt).Nodup)
    (live : ∀ node ∈ nodes objects values opt, node ∉ freed) :
    ∀ node ∈ [opt, objects.values opt], node ∉ freed ++ values opt := by
  obtain ⟨notOpt, valuesOwn⟩ := List.nodup_cons.mp own
  intro node member inFreed
  rcases List.mem_cons.mp member with rfl | single
  · rcases List.mem_append.mp inFreed with old | value
    · exact live node List.mem_cons_self old
    · exact notOpt (List.mem_cons_of_mem _ value)
  · obtain rfl := List.mem_singleton.mp single
    rcases List.mem_append.mp inFreed with old | value
    · exact live _ (mem_nodes List.mem_cons_self) old
    · exact (List.nodup_cons.mp valuesOwn).1 value

/-- What is freed with an option is of no use to the rest of the loop. -/
theorem rest_outlives_option {freed : List Node}
    (later : (nodes objects values opt).Disjoint (head :: rest.flatMap (nodes objects values)))
    (live : ∀ node ∈ head :: (opt :: rest).flatMap (nodes objects values), node ∉ freed) :
    ∀ node ∈ head :: rest.flatMap (nodes objects values),
      node ∉ freed ++ (values opt ++ [opt, objects.values opt]) := by
  intro node member inFreed
  rcases List.mem_append.mp inFreed with old | new
  · refine live node ?_ old
    rcases List.mem_cons.mp member with rfl | inside
    · exact List.mem_cons_self
    · exact List.mem_cons_of_mem head (List.mem_append_right _ inside)
  · refine later ?_ member
    rcases List.mem_append.mp new with value | object
    · exact mem_nodes (List.mem_cons_of_mem _ value)
    · rcases List.mem_cons.mp object with rfl | single
      · exact List.mem_cons_self
      · exact mem_nodes (List.mem_singleton.mp single ▸ List.mem_cons_self)

variable [DecidableEq Node]

theorem free_option_turn (owned : Owned objects values start head options)
    (freeing : Freeing objects values start head options visited (opt :: rest) memory)
    (enough : (values opt).length ≤ fuel) :
    ∃ left, freeOption objects fuel opt memory = some left ∧
      Freeing objects values start head options (visited ++ [opt]) rest left := by
  obtain rfl := freeing.split
  have linked := freeing_values_linked owned freeing
  obtain ⟨-, live, freed, texts, unmoved⟩ := freeing
  obtain ⟨-, own, later⟩ := owned_apart owned
  have ownLive : ∀ node ∈ nodes objects values opt, node ∉ memory.heap.freed := fun node inside =>
    live node (List.mem_cons_of_mem head (List.mem_append_left _ inside))
  obtain ⟨left, ran, -, gone, freedTexts, moved⟩ :
      ∃ left, freeValues objects fuel (memory.freeText (objects.name opt))
          (some (objects.values opt)) = some (values opt, left) ∧
        Emptied objects (objects.values opt) (values opt) (memory.freeText (objects.name opt))
          left := by
    refine free_values_empties ?_ (fun node member => ?_) enough
    · rwa [free_text_heap]
    · rw [free_text_heap]
      exact ownLive node (mem_nodes member)
  rw [free_text_heap] at gone moved
  have stillThere : ∀ node ∈ [opt, objects.values opt], node ∉ left.heap.freed := by
    rw [gone]
    exact option_outlives_values own ownLive
  refine ⟨{ left with heap := { left.heap with
    freed := left.heap.freed ++ [opt, objects.values opt] } }, ?_, ?_, ?_, ?_, ?_, ?_⟩
  · simp only [freeOption, read_live (ownLive opt List.mem_cons_self), ran, Heap.free,
      if_pos stillThere, Option.bind_eq_bind, Option.bind_some]
  · rw [List.append_assoc, List.singleton_append]
  · rw [gone, List.append_assoc]
    exact rest_outlives_option later live
  · simp only [gone, freed, List.append_assoc, List.flatMap_append, List.flatMap_cons,
      List.flatMap_nil, List.append_nil]
  · simp only [freedTexts, free_text_texts, texts, List.append_assoc, List.flatMap_append,
      List.flatMap_cons, List.flatMap_nil, List.append_nil]
  · -- only the nodes of the values moved, now and in the turns before
    intro node outside
    rw [List.flatMap_append, List.mem_append, not_or] at outside
    obtain ⟨notEarlier, notHere⟩ := outside
    have notOwn : node ∉ objects.values opt :: values opt := fun inside =>
      notHere (List.mem_flatMap.mpr ⟨opt, List.mem_singleton.mpr rfl, inside⟩)
    obtain ⟨next, prev⟩ := moved node notOwn
    obtain ⟨keptNext, keptPrev⟩ := unmoved node notEarlier
    exact ⟨next.trans keptNext, prev.trans keptPrev⟩

theorem free_options_visits (owned : Owned objects values memory head options)
    (enough : options.length ≤ fuel) (within : ∀ opt ∈ options, (values opt).length ≤ fuel) :
    ∃ left, freeOptions objects fuel memory (some head) = some (options, left) ∧
      Freeing objects values memory head options options [] left := by
  have visits : Visits Memory.next (freeOption objects fuel) head
      (Freeing objects values memory head options) := by
    constructor
    · intro visited node rest left freeing
      have member : node ∈ head :: options := by
        rw [freeing.split]
        exact List.mem_cons_of_mem head (List.mem_append_right visited List.mem_cons_self)
      have live : node ∉ left.heap.freed :=
        freeing.live node (List.mem_cons_of_mem head List.mem_cons_self)
      have linked := owned.linked
      rw [freeing.split] at linked
      rw [Memory.next, next_of_live live, freeing_next owned freeing member, next_of_item linked]
    · exact fun freeing => ⟨_, next_of_live (freeing.live head List.mem_cons_self)⟩
    · intro visited node rest left freeing
      refine free_option_turn owned freeing (within node ?_)
      rw [freeing.split]
      exact List.mem_append_right visited List.mem_cons_self
  have first : memory.next head = some (options.headD head) := by
    rw [Memory.next, next_of_live (owned.live head List.mem_cons_self), next_of_head owned.linked]
  exact for_each_safe_visits visits
    ⟨rfl, owned.live, (List.append_nil _).symm, (List.append_nil _).symm, fun _ _ => ⟨rfl, rfl⟩⟩
    first (List.nodup_cons.mp owned.linked.distinct).1 enough

end Options

/-! The whole. -/
section Whole
variable [DecidableEq Node]

/-- Any operations on lists apart from each other leave cycles with the items that the
operations say, and the loops that free items visit each one and read none that is gone.
After `free_options` the items are freed and still linked. -/
theorem lists_kept :
    (∀ (links : Links Node) (lists final : Family Node) (ops : List (Op Node)),
      Represents links lists → Runs lists ops final →
      Represents (ops.foldl Op.apply links) final ∧
        ∀ head items, final head = some items → GoesRound (ops.foldl Op.apply links) head items) ∧
    (∀ (heap : Heap Node) (head : Node) (items : List Node) (keep : Node → Bool) (fuel : Nat),
      Linked heap.links head items → (∀ node ∈ head :: items, node ∉ heap.freed) →
      items.length ≤ fuel →
      ∃ left, forEachSafe Heap.next (Heap.purge keep) head fuel heap = some (items, left) ∧
        Linked left.links head (items.filter keep) ∧
        left.freed = heap.freed ++ items.filter fun node => !keep node) ∧
    (∀ (objects : Objects Node Block) (memory : Memory Node Block) (fuel : Nat),
      freeValues objects fuel memory none = some ([], memory) ∧
      ∀ head items, Linked memory.heap.links head items →
        (∀ node ∈ head :: items, node ∉ memory.heap.freed) → items.length ≤ fuel →
        ∃ left, freeValues objects fuel memory (some head) = some (items, left) ∧
          Emptied objects head items memory left ∧ left.heap.links.isEmpty head = true) ∧
    ∀ (objects : Objects Node Block) (memory : Memory Node Block) (fuel : Nat),
      freeOptions objects fuel memory none = some ([], memory) ∧
      ∀ (values : Node → List Node) (head : Node) (options : List Node),
        Owned objects values memory head options → options.length ≤ fuel →
        (∀ opt ∈ options, (values opt).length ≤ fuel) →
        ∃ left, freeOptions objects fuel memory (some head) = some (options, left) ∧
          Freeing objects values memory head options options [] left ∧
          ∀ node ∈ head :: options, left.heap.links.next node = memory.heap.links.next node := by
  refine ⟨?_, ?_, ?_, ?_⟩
  · intro links lists final ops represents runs
    have kept := run_represents represents runs
    exact ⟨kept, fun head items present => linked_goes_round (kept.linked present)⟩
  · intro heap head items keep fuel linked live enough
    obtain ⟨left, visited, purging⟩ := purge_visits keep linked live enough
    have linked := purging.linked
    rw [List.append_nil] at linked
    exact ⟨left, visited, linked, purging.freed⟩
  · intro objects memory fuel
    refine ⟨rfl, fun head items linked live enough => ?_⟩
    obtain ⟨left, ran, emptied⟩ := free_values_empties linked live enough
    exact ⟨left, ran, emptied, (empty_iff emptied.linked).mpr rfl⟩
  · intro objects memory fuel
    refine ⟨rfl, fun values head options owned enough within => ?_⟩
    obtain ⟨left, ran, freeing⟩ := free_options_visits owned enough within
    exact ⟨left, ran, freeing, fun node member => freeing_next owned freeing member⟩

/-- Two options behind node 0; the values of option `n` are behind node `n + 10`. -/
def twoOptions : Links Nat :=
  [.init 0, .addTail 1 0, .init 11, .addTail 2 0, .init 12, .addTail 21 11, .addTail 22 11].foldl
    Op.apply ⟨fun _ => 0, fun _ => 0⟩

def twoObjects : Objects Nat Nat :=
  { data := fun node => some node
    name := fun node => some node
    values := fun node => node + 10 }

theorem lists_kept_two :
    GoesRound (Links.add (Links.init twoOptions 5) 6 5) 5 [6] ∧
      (forEachSafe Heap.next (Heap.purge fun node => node == 2) 0 2 ⟨twoOptions, []⟩).map
        Prod.fst = some [1, 2] ∧
      (freeValues twoObjects 2 ⟨⟨twoOptions, []⟩, []⟩ (some 11)).map Prod.fst = some [21, 22] ∧
      (freeOptions twoObjects 2 ⟨⟨twoOptions, []⟩, []⟩ (some 0)).map Prod.fst = some [1, 2] := by
  obtain ⟨operations, purge, values_, options_⟩ := @lists_kept Nat Nat _
  refine ⟨?_, ?_, ?_, ?_⟩
  · have fresh : ¬ Used (Function.update (fun _ => none) 5 (some [])) 6 := by
      rintro ⟨head, items, present, member⟩
      by_cases same : head = 5
      · subst same
        rw [Function.update_self] at present
        obtain rfl := Option.some.inj present
        exact absurd member (by decide)
      · rw [Function.update_of_ne same] at present
        exact Option.some_ne_none items present.symm
    have runs : Runs (fun _ => none) [Op.init 5, Op.add 6 5] _ :=
      .step (.init nofun) (.step (.add (Function.update_self ..) fresh) (.done _))
    exact (operations twoOptions _ _ _ (nothing_represented _) runs).2 5 [6]
      (Function.update_self ..)
  · obtain ⟨left, ran, -⟩ := purge ⟨twoOptions, []⟩ 0 [1, 2] (fun node => node == 2) 2
      (by decide) (by decide) (by decide)
    rw [ran]
    rfl
  · obtain ⟨left, ran, -⟩ := (values_ twoObjects ⟨⟨twoOptions, []⟩, []⟩ 2).2 11 [21, 22]
      (by decide) (by decide) (by decide)
    rw [ran]
    rfl
  · have owned : Owned twoObjects (fun opt => if opt = 1 then [21, 22] else [])
        ⟨⟨twoOptions, []⟩, []⟩ 0 [1, 2] :=
      ⟨by decide, by decide, by decide, by decide⟩
    obtain ⟨left, ran, -⟩ := (options_ twoObjects ⟨⟨twoOptions, []⟩, []⟩ 2).2 _ 0 [1, 2] owned
      (by decide) (by decide)
    rw [ran]
    rfl
end Whole
end PteSysbench.SbList
