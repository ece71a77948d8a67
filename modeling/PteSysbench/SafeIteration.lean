import PteSysbench.CircularLists

/-!
Loops over a circular list that read the node after the next one before the next turn, so
that the body may delete the node it is at, and free it. A read or a write of a freed node
has no result.
-/

namespace PteSysbench.SafeIteration

open CircularLists

/-! The loop, over any memory whose nodes may be read. -/
section Loops
variable {Node Memory : Type*} [DecidableEq Node] (next : Memory → Node → Option Node)
  (body : Node → Memory → Option Memory) (head : Node)

/-- The nodes visited, and the memory left; the number bounds the turns. -/
def safeLoop : Nat → Node → Node → Memory → Option (List Node × Memory)
  | 0, pos, _, memory => if pos = head then some ([], memory) else none
  | fuel + 1, pos, temp, memory =>
      if pos = head then some ([], memory)
      else
        -- `temp` was read before the body, and is itself read only after it
        (body pos memory).bind fun memory =>
          (next memory temp).bind fun after =>
            (safeLoop fuel temp after memory).map fun (visited, memory) =>
              (pos :: visited, memory)

def forEachSafe (fuel : Nat) (memory : Memory) : Option (List Node × Memory) :=
  (next memory head).bind fun pos =>
    (next memory pos).bind fun temp => safeLoop next body head fuel pos temp memory

/-- What holds between turns, of the nodes visited and of those that are left. -/
structure Visits (inv : List Node → List Node → Memory → Prop) : Prop where
  reads : ∀ {visited node rest memory}, inv visited (node :: rest) memory →
    next memory node = some (rest.headD head)
  around : ∀ {visited memory}, inv visited [] memory → ∃ after, next memory head = some after
  turn : ∀ {visited node rest memory}, inv visited (node :: rest) memory →
    ∃ left, body node memory = some left ∧ inv (visited ++ [node]) rest left

variable {next body head} {inv : List Node → List Node → Memory → Prop}

omit [DecidableEq Node] in
/-- The second pointer of the loop can be read: the node there, or the head, is alive. -/
theorem read_ahead (visits : Visits next body head inv) {visited rest : List Node}
    {memory : Memory} (kept : inv visited rest memory) :
    ∃ after, next memory (rest.headD head) = some after ∧
      (rest ≠ [] → after = rest.tail.headD head) := by
  cases rest with
  | nil =>
      obtain ⟨after, read⟩ := visits.around kept
      exact ⟨after, read, fun some_ => absurd rfl some_⟩
  | cons node rest => exact ⟨rest.headD head, visits.reads kept, fun _ => rfl⟩

theorem safe_loop_visits (visits : Visits next body head inv) {rest : List Node} :
    ∀ {visited : List Node} {fuel : Nat} {temp : Node} {memory : Memory},
      inv visited rest memory → head ∉ rest → rest.length ≤ fuel →
      (rest ≠ [] → temp = rest.tail.headD head) →
      ∃ left, safeLoop next body head fuel (rest.headD head) temp memory = some (rest, left) ∧
        inv (visited ++ rest) [] left := by
  -- on the nodes left; `temp` is the one behind the next, and nothing is known of it at the end
  induction rest with
  | nil =>
      intro visited fuel temp memory kept _ _ _
      refine ⟨memory, ?_, by rwa [List.append_nil]⟩
      cases fuel with
      | zero => rw [safeLoop, List.headD_nil, if_pos rfl]
      | succ fuel => rw [safeLoop, List.headD_nil, if_pos rfl]
  | cons node rest ih =>
      intro visited fuel temp memory kept apart enough ahead
      obtain ⟨notNode, notRest⟩ := not_or.mp (mt List.mem_cons.mpr apart)
      obtain ⟨fuel, rfl⟩ := Nat.exists_eq_add_of_le' (Nat.le_trans (Nat.succ_pos _) enough)
      obtain rfl : temp = rest.headD head := ahead (List.cons_ne_nil node rest)
      obtain ⟨turned, ran, kept⟩ := visits.turn kept
      obtain ⟨after, read, ahead⟩ := read_ahead visits kept
      obtain ⟨left, looped, kept⟩ := ih kept notRest (Nat.le_of_succ_le_succ enough) ahead
      refine ⟨left, ?_, by rwa [List.append_assoc] at kept⟩
      rw [safeLoop, List.headD_cons, if_neg (Ne.symm notNode), ran, Option.bind_some, read,
        Option.bind_some, looped, Option.map_some]

/-- Every node is visited once, in order, whatever the body does with it. -/
theorem for_each_safe_visits (visits : Visits next body head inv) {items : List Node}
    {memory : Memory} (start : inv [] items memory) (first : next memory head =
      some (items.headD head)) (apart : head ∉ items) {fuel : Nat}
    (enough : items.length ≤ fuel) :
    ∃ left, forEachSafe next body head fuel memory = some (items, left) ∧ inv items [] left := by
  obtain ⟨after, read, ahead⟩ := read_ahead visits start
  obtain ⟨left, looped, kept⟩ := safe_loop_visits visits start apart enough ahead
  refine ⟨left, ?_, kept⟩
  rw [forEachSafe, first, Option.bind_some, read, Option.bind_some, looped]

end Loops

/-! A heap that knows which nodes were freed. -/
section Heaps
variable {Node : Type*} [DecidableEq Node]

structure Heap (Node : Type*) where
  links : Links Node
  freed : List Node

def Heap.next (heap : Heap Node) (node : Node) : Option Node :=
  if node ∈ heap.freed then none else some (heap.links.next node)

def Heap.prev (heap : Heap Node) (node : Node) : Option Node :=
  if node ∈ heap.freed then none else some (heap.links.prev node)

def Heap.setNext (heap : Heap Node) (node value : Node) : Option (Heap Node) :=
  if node ∈ heap.freed then none
  else some { heap with links.next := Function.update heap.links.next node value }

def Heap.setPrev (heap : Heap Node) (node value : Node) : Option (Heap Node) :=
  if node ∈ heap.freed then none
  else some { heap with links.prev := Function.update heap.links.prev node value }

/-- `Links.delete`, with every pointer read where it is used. -/
def Heap.delete (heap : Heap Node) (old : Node) : Option (Heap Node) := do
  let heap ← heap.setPrev (← heap.next old) (← heap.prev old)
  heap.setNext (← heap.prev old) (← heap.next old)

/-- The nodes of one object; none of them may have been freed before. -/
def Heap.free (heap : Heap Node) (nodes : List Node) : Option (Heap Node) :=
  if ∀ node ∈ nodes, node ∉ heap.freed then some { heap with freed := heap.freed ++ nodes }
  else none

/-- A body that keeps some nodes, and deletes and frees the others. -/
def Heap.purge (keep : Node → Bool) (node : Node) (heap : Heap Node) : Option (Heap Node) :=
  if keep node then some heap else (heap.delete node).bind fun heap => heap.free [node]

variable {heap : Heap Node} {head item : Node} {before after items : List Node}

theorem next_of_live (live : item ∉ heap.freed) : heap.next item = some (heap.links.next item) :=
  if_neg live

theorem delete_live (live : item ∉ heap.freed) (next : heap.links.next item ∉ heap.freed)
    (prev : heap.links.prev item ∉ heap.freed) :
    heap.delete item = some { heap with links := heap.links.delete item } := by
  -- the second read of the pointer back finds what the first one did
  have again : Function.update heap.links.prev (heap.links.next item) (heap.links.prev item) item =
      heap.links.prev item := by
    by_cases same : item = heap.links.next item
    · rw [← same, Function.update_self]
    · exact Function.update_of_ne same ..
  simp only [Heap.delete, Heap.next, Heap.prev, Heap.setPrev, Heap.setNext, if_neg live,
    if_neg next, Option.bind_eq_bind, Option.bind_some, again, if_neg prev, Links.delete]

theorem delete_heap (linked : Linked heap.links head (before ++ item :: after))
    (live : ∀ node ∈ head :: (before ++ item :: after), node ∉ heap.freed) :
    heap.delete item = some { heap with links := heap.links.delete item } := by
  have member : item ∈ head :: (before ++ item :: after) :=
    List.mem_cons_of_mem head (List.mem_append_right before List.mem_cons_self)
  obtain ⟨next, prev⟩ := linked_neighbours linked member
  exact delete_live (live item member) (live _ next) (live _ prev)

theorem free_one (live : item ∉ heap.freed) :
    heap.free [item] = some { heap with freed := heap.freed ++ [item] } :=
  if_pos fun _ member => List.mem_singleton.mp member ▸ live

/-- A loop in the middle: some of the visited nodes are gone, the others are as they were. -/
structure Purging (start : Heap Node) (head : Node) (items : List Node) (keep : Node → Bool)
    (visited rest : List Node) (heap : Heap Node) : Prop where
  split : items = visited ++ rest
  linked : Linked heap.links head (visited.filter keep ++ rest)
  live : ∀ node ∈ head :: (visited.filter keep ++ rest), node ∉ heap.freed
  freed : heap.freed = start.freed ++ visited.filter fun node => !keep node
  unmoved : ∀ node, node ∉ head :: items → Unmoved start.links heap.links node

theorem purge_step {start : Heap Node} {keep : Node → Bool} {visited rest : List Node}
    (purging : Purging start head items keep visited (item :: rest) heap) :
    ∃ left, heap.purge keep item = some left ∧
      Purging start head items keep (visited ++ [item]) rest left := by
  obtain ⟨split, linked, live, freed, unmoved⟩ := purging
  have next : items = visited ++ [item] ++ rest := by
    rw [split, List.append_assoc, List.singleton_append]
  have member : item ∈ visited.filter keep ++ item :: rest :=
    List.mem_append_right _ List.mem_cons_self
  cases kept : keep item with
  | true =>
      have stays : (visited ++ [item]).filter keep ++ rest =
          visited.filter keep ++ item :: rest := by
        rw [List.filter_append, List.filter_cons_of_pos kept, List.filter_nil,
          List.append_assoc, List.singleton_append]
      refine ⟨heap, by rw [Heap.purge, kept]; rfl, next, ?_, ?_, ?_, unmoved⟩
      · rwa [stays]
      · rwa [stays]
      · rw [freed, List.filter_append, List.filter_cons_of_neg (by simp [kept]), List.filter_nil,
          List.append_nil]
  | false =>
      have here : item ∉ heap.freed := live item (List.mem_cons_of_mem head member)
      have goes : (visited ++ [item]).filter keep = visited.filter keep := by
        rw [List.filter_append, List.filter_cons_of_neg (by simp [kept]), List.filter_nil,
          List.append_nil]
      have distinct := linked.distinct
      rw [← List.cons_append, List.nodup_middle, List.nodup_cons] at distinct
      refine ⟨{ links := heap.links.delete item, freed := heap.freed ++ [item] }, ?_, next,
        ?_, ?_, ?_, ?_⟩
      · rw [Heap.purge, kept, delete_heap linked live]
        exact free_one here
      · rw [goes]
        exact delete_linked linked
      · rw [goes]
        intro node inside gone
        rcases List.mem_append.mp gone with earlier | single
        · refine live node ?_ earlier
          exact List.cons_subset_cons head ((List.sublist_cons_self item rest).append_left _).subset
            inside
        · exact distinct.1 (List.mem_singleton.mp single ▸ inside)
      · rw [freed, List.filter_append, List.filter_cons_of_pos (by simp [kept]), List.filter_nil,
          List.append_assoc]
      · intro node outside
        obtain ⟨keptNext, keptPrev⟩ := unmoved node outside
        have notHere : node ∉ head :: (visited.filter keep ++ item :: rest) := by
          refine fun inside => outside (split ▸ ?_)
          exact List.cons_subset_cons head
            ((List.filter_sublist).append_right (item :: rest)).subset inside
        obtain ⟨goneNext, gonePrev⟩ := delete_unmoved linked member notHere
        exact ⟨goneNext.trans keptNext, gonePrev.trans keptPrev⟩

/-- Whatever else the body does with its memory, if on the heap it keeps some nodes and
deletes and frees the others, then every node is visited and these are left. -/
theorem for_each_safe_purges {Memory : Type*} {heapOf : Memory → Heap Node}
    {body : Node → Memory → Option Memory} {keep : Node → Bool}
    (extra : List Node → Memory → Prop)
    (purges : ∀ visited node memory left, extra visited memory →
      (heapOf memory).purge keep node = some left →
      ∃ turned, body node memory = some turned ∧ heapOf turned = left ∧
        extra (visited ++ [node]) turned)
    {memory : Memory} (start : extra [] memory) (linked : Linked (heapOf memory).links head items)
    (live : ∀ node ∈ head :: items, node ∉ (heapOf memory).freed) {fuel : Nat}
    (enough : items.length ≤ fuel) :
    ∃ left, forEachSafe (fun memory => (heapOf memory).next) body head fuel memory =
        some (items, left) ∧
      Purging (heapOf memory) head items keep items [] (heapOf left) ∧ extra items left := by
  have visits : Visits (fun memory => (heapOf memory).next) body head fun visited rest left =>
      Purging (heapOf memory) head items keep visited rest (heapOf left) ∧ extra visited left := by
    constructor
    · rintro visited node rest left ⟨purging, -⟩
      have member : node ∈ head :: (visited.filter keep ++ node :: rest) :=
        List.mem_cons_of_mem head (List.mem_append_right _ List.mem_cons_self)
      rw [next_of_live (purging.live node member), next_of_item purging.linked]
    · rintro visited left ⟨purging, -⟩
      exact ⟨_, next_of_live (purging.live head List.mem_cons_self)⟩
    · rintro visited node rest left ⟨purging, extraKept⟩
      obtain ⟨purged, onHeap, purging⟩ := purge_step purging
      obtain ⟨turned, ran, rfl, extraKept⟩ := purges visited node left purged extraKept onHeap
      exact ⟨turned, ran, purging, extraKept⟩
  have first : (heapOf memory).next head = some (items.headD head) := by
    rw [next_of_live (live head List.mem_cons_self), next_of_head linked]
  exact for_each_safe_visits visits
    ⟨⟨rfl, linked, live, (List.append_nil _).symm, fun _ _ => ⟨rfl, rfl⟩⟩, start⟩ first
    (List.nodup_cons.mp linked.distinct).1 enough

theorem purge_visits (keep : Node → Bool) (linked : Linked heap.links head items)
    (live : ∀ node ∈ head :: items, node ∉ heap.freed) {fuel : Nat}
    (enough : items.length ≤ fuel) :
    ∃ left, forEachSafe Heap.next (Heap.purge keep) head fuel heap = some (items, left) ∧
      Purging heap head items keep items [] left := by
  obtain ⟨left, visited, purging, -⟩ := for_each_safe_purges (fun _ _ => True)
    (fun _ _ _ turned _ purged => ⟨turned, purged, rfl, trivial⟩) trivial linked live enough
  exact ⟨left, visited, purging⟩

end Heaps
end PteSysbench.SafeIteration
