import Mathlib.Data.List.Basic

/-!
Stores written by a sequence of assignments. Each one sets a name and then, in
bulk, any number of other names; the store ends with the last writer of each.
-/

namespace PteSysbench.LastWriter

structure Assignment (Name Value : Type*) where
  name : Name
  value : Value
  bulk : Name → Option Value

variable {Name Value : Type*} [DecidableEq Name]

namespace Assignment

/-- What one assignment leaves in a name it writes. -/
def wrote (a : Assignment Name Value) (name : Name) : Option Value :=
  (a.bulk name).or (if a.name = name then some a.value else none)

end Assignment

/-- What the last writer of the name left in it. -/
def written (name : Name) : List (Assignment Name Value) → Option Value
  | [] => none
  | a :: rest => (written name rest).or (a.wrote name)

/-- The last value assigned to the name itself. -/
def assigned (name : Name) : List (Assignment Name Value) → Option Value
  | [] => none
  | a :: rest => (assigned name rest).or (if a.name = name then some a.value else none)

/-- The last value of the name among the bulks. -/
def lastBulk (name : Name) (bulks : List (Name → Option Value)) : Option Value :=
  match bulks with
  | [] => none
  | bulk :: rest => (lastBulk name rest).or (bulk name)

/-- The last bulk value of the name that comes with its last own assignment or
after it. -/
def late (name : Name) : List (Assignment Name Value) → Option Value
  | [] => none
  | a :: rest => (late name rest).or (if (assigned name rest).isSome then none else a.bulk name)

section Writers
variable {name : Name} {first second : List (Assignment Name Value)}

theorem written_append : written name (first ++ second) =
    (written name second).or (written name first) := by
  induction first with
  | nil => simp [written]
  | cons a rest ih => simp [written, ih, Option.or_assoc]

theorem assigned_append : assigned name (first ++ second) =
    (assigned name second).or (assigned name first) := by
  induction first with
  | nil => simp [assigned]
  | cons a rest ih => simp [assigned, ih, Option.or_assoc]

/-- The last writer is a bulk, or else the last own assignment. -/
theorem written_eq (assignments : List (Assignment Name Value)) :
    written name assignments = (late name assignments).or (assigned name assignments) := by
  induction assignments with
  | nil => rfl
  | cons a rest ih =>
      simp only [written, late, assigned, ih, Assignment.wrote]
      cases assigned name rest with
      | none => simp [Option.or_assoc]
      | some value => simp

theorem assigned_eq_none (others : ∀ a ∈ first, a.name ≠ name) : assigned name first = none := by
  induction first with
  | nil => rfl
  | cons a rest ih =>
      have here : a.name ≠ name := others a List.mem_cons_self
      simp [assigned, here, ih fun b member => others b (List.mem_cons_of_mem a member)]

theorem late_eq_last_bulk (others : ∀ a ∈ first, a.name ≠ name) :
    late name first = lastBulk name (first.map Assignment.bulk) := by
  induction first with
  | nil => rfl
  | cons a rest ih =>
      have after : ∀ b ∈ rest, b.name ≠ name := fun b member =>
        others b (List.mem_cons_of_mem a member)
      simp [late, lastBulk, ih after, assigned_eq_none after]

theorem late_eq_none (silent : ∀ a ∈ first, a.bulk name = none) : late name first = none := by
  induction first with
  | nil => rfl
  | cons a rest ih =>
      have here : a.bulk name = none := silent a List.mem_cons_self
      simp [late, here, ih fun b member => silent b (List.mem_cons_of_mem a member)]

theorem assigned_is_some : (assigned name first).isSome =
    first.any fun a => decide (a.name = name) := by
  induction first with
  | nil => rfl
  | cons a rest ih =>
      rw [assigned, Option.isSome_or, ih, List.any_cons, Bool.or_comm]
      by_cases same : a.name = name <;> simp [same]

/-- Assignments made from a list: the last element under the name decides. -/
theorem assigned_map {Source : Type*} (make : Source → Assignment Name Value)
    (sources : List Source) : assigned name (sources.map make) =
      (sources.filter fun x => decide ((make x).name = name)).getLast?.map
        fun x => (make x).value := by
  induction sources with
  | nil => rfl
  | cons x rest ih =>
      rw [List.map_cons, assigned, ih]
      by_cases same : (make x).name = name
      · rw [List.filter_cons_of_pos (by simpa using same), List.getLast?_cons]
        cases (rest.filter fun x => decide ((make x).name = name)).getLast? <;> simp [same]
      · rw [List.filter_cons_of_neg (by simpa using same)]
        simp [same]

omit [DecidableEq Name] in
theorem last_bulk_append (earlier later : List (Name → Option Value)) :
    lastBulk name (earlier ++ later) = (lastBulk name later).or (lastBulk name earlier) := by
  induction earlier with
  | nil => simp [lastBulk]
  | cons bulk rest ih => simp [lastBulk, ih, Option.or_assoc]

end Writers
end PteSysbench.LastWriter
