import PteSysbench.ActionSystem
import Mathlib.Logic.Function.Basic

/-!
Threads that run one code over shared data with one mutex. The code may use both as it
likes; an unlock and an update by a thread that does not hold the mutex are recorded. A
code that is bracketed by lock and unlock takes no such step, whatever the interleaving.
-/

namespace PteSysbench.LockDiscipline

open ActionSystem

/-- What a thread does at a place, and where it goes on. -/
inductive Instruction (Place Shared : Type*) where
  | lock (next : Place)
  | unlock (next : Place)
  | read (next : Place)
  | update (next : Place) (shared : Shared)

def Instruction.next {Place Shared : Type*} : Instruction Place Shared → Place
  | .lock next | .unlock next | .read next | .update next _ => next

/-- `strayUnlock` and `strayUpdate` are history. -/
structure State (Thread Place Shared : Type*) where
  place : Thread → Place
  shared : Shared
  mutex : Option Thread
  strayUnlock : Bool
  strayUpdate : Bool

variable {Thread Input Place Shared : Type*} [DecidableEq Thread]

def State.goto (s : State Thread Place Shared) (w : Thread) (next : Place) :
    State Thread Place Shared :=
  { s with place := Function.update s.place w next }

@[simp] theorem State.goto_place (s : State Thread Place Shared) (w : Thread) (next : Place) :
    (s.goto w next).place w = next := by
  simp [goto]

@[simp] theorem State.goto_shared (s : State Thread Place Shared) (w : Thread) (next : Place) :
    (s.goto w next).shared = s.shared := rfl

@[simp] theorem State.goto_mutex (s : State Thread Place Shared) (w : Thread) (next : Place) :
    (s.goto w next).mutex = s.mutex := rfl

theorem State.goto_other (s : State Thread Place Shared) (w v : Thread) (next : Place)
    (other : v ≠ w) : (s.goto w next).place v = s.place v := by
  simp [goto, other]

/-- An unlock frees the mutex whoever holds it. -/
def perform (s : State Thread Place Shared) (w : Thread) :
    Instruction Place Shared → Option (State Thread Place Shared)
  | .lock next => if s.mutex.isNone then some { s.goto w next with mutex := some w } else none
  | .unlock next => some { s.goto w next with
      mutex := none
      strayUnlock := s.strayUnlock || s.mutex != some w }
  | .read next => some (s.goto w next)
  | .update next shared => some { s.goto w next with
      shared := shared
      strayUpdate := s.strayUpdate || s.mutex != some w }

/-- Only the thread that takes the step moves. -/
theorem perform_place (s t : State Thread Place Shared) (w : Thread)
    (instruction : Instruction Place Shared) (taken : perform s w instruction = some t) :
    t.place = Function.update s.place w instruction.next := by
  cases instruction with
  | lock next =>
      obtain ⟨_, taken⟩ := Option.ite_none_right_eq_some.mp taken
      obtain rfl := Option.some.inj taken
      rfl
  | unlock | read | update =>
      obtain rfl := Option.some.inj taken
      rfl

/-- At some places a thread waits for its input, or stops. -/
def step (code : Thread → Input → Shared → Place → Option (Instruction Place Shared))
    (s : State Thread Place Shared) (a : Thread × Input) : Option (State Thread Place Shared) :=
  (code a.1 a.2 s.shared (s.place a.1)).bind (perform s a.1)

/-! Every place belongs to the holder of the mutex or to the others. -/
section Bracketed
variable {code : Thread → Input → Shared → Place → Option (Instruction Place Shared)}
  {holds : Place → Bool} {inside : Place → Prop} {good : Shared → Prop}

def Instruction.Fits (holds : Place → Bool) (inside : Place → Prop) (good : Shared → Prop)
    (place : Place) : Instruction Place Shared → Prop
  | .lock next => holds place = false ∧ holds next = true ∧ inside next
  | .unlock next => holds place = true ∧ holds next = false ∧ inside next
  | .read next => holds next = holds place ∧ inside next
  | .update next shared => holds place = true ∧ holds next = true ∧ inside next ∧ good shared

/-- `inside` has the places the threads reach while the shared data are `good`. -/
def Bracketed (code : Thread → Input → Shared → Place → Option (Instruction Place Shared))
    (holds : Place → Bool) (inside : Place → Prop) (good : Shared → Prop) : Prop :=
  ∀ w input shared place instruction, inside place → good shared →
    code w input shared place = some instruction → instruction.Fits holds inside good place

structure Exclusive (holds : Place → Bool) (inside : Place → Prop) (good : Shared → Prop)
    (s : State Thread Place Shared) : Prop where
  inside : ∀ w, inside (s.place w)
  owner : ∀ w, holds (s.place w) = true ↔ s.mutex = some w
  good : good s.shared
  unlocks : s.strayUnlock = false
  updates : s.strayUpdate = false

theorem goto_inside (s : State Thread Place Shared) (w : Thread) (next : Place)
    (all : ∀ v, inside (s.place v)) (own : inside next) :
    ∀ v, inside ((s.goto w next).place v) := by
  intro v
  by_cases same : v = w
  · subst same
    rwa [State.goto_place]
  · rw [State.goto_other s w v next same]
    exact all v

/-- The places say who holds the mutex after a step as well. -/
theorem goto_owner (s : State Thread Place Shared) (w : Thread) (next : Place)
    (mutex : Option Thread) (own : holds next = true ↔ mutex = some w)
    (others : ∀ v, v ≠ w → (holds (s.place v) = true ↔ mutex = some v)) :
    ∀ v, holds ((s.goto w next).place v) = true ↔ mutex = some v := by
  intro v
  by_cases same : v = w
  · subst same
    rwa [State.goto_place]
  · rw [State.goto_other s w v next same]
    exact others v same

theorem perform_exclusive (s t : State Thread Place Shared) (w : Thread)
    (exclusive : Exclusive holds inside good s) (instruction : Instruction Place Shared)
    (fits : instruction.Fits holds inside good (s.place w))
    (taken : perform s w instruction = some t) : Exclusive holds inside good t := by
  -- only the instructions of the lock move its owner
  have owner := exclusive.owner
  cases instruction with
  | lock next =>
      obtain ⟨free, taken⟩ := Option.ite_none_right_eq_some.mp taken
      obtain rfl := Option.some.inj taken
      obtain ⟨_, held, within⟩ := fits
      rw [Option.isNone_iff_eq_none] at free
      refine ⟨goto_inside s w next exclusive.inside within, ?_, exclusive.good,
        exclusive.unlocks, exclusive.updates⟩
      apply goto_owner s w next _ (by simp [held])
      intro v other
      simp [owner v, free, other.symm]
  | unlock next =>
      obtain rfl := Option.some.inj taken
      obtain ⟨held, released, within⟩ := fits
      have mine := (owner w).mp held
      refine ⟨goto_inside s w next exclusive.inside within, ?_, exclusive.good, ?_,
        exclusive.updates⟩
      · apply goto_owner s w next _ (by simp [released])
        intro v other
        simp [owner v, mine, other.symm]
      · simp [mine, exclusive.unlocks]
  | read next =>
      obtain rfl := Option.some.inj taken
      obtain ⟨same, within⟩ := fits
      refine ⟨goto_inside s w next exclusive.inside within, ?_, exclusive.good,
        exclusive.unlocks, exclusive.updates⟩
      exact goto_owner s w next _ (by rw [same]; exact owner w) fun v _ => owner v
  | update next shared =>
      obtain rfl := Option.some.inj taken
      obtain ⟨held, still, within, kept⟩ := fits
      have mine := (owner w).mp held
      refine ⟨goto_inside s w next exclusive.inside within, ?_, kept, exclusive.unlocks, ?_⟩
      · exact goto_owner s w next s.mutex (by simp [still, mine]) fun v _ => owner v
      · simp [mine, exclusive.updates]

theorem bracketed_exclusive (bracketed : Bracketed code holds inside good)
    (s : State Thread Place Shared) (exclusive : Exclusive holds inside good s)
    (schedule : List (Thread × Input)) :
    Always (step code) (Exclusive holds inside good) s schedule := by
  apply invariant_keeps _ s schedule exclusive
  intro u a t exclusive taken
  obtain ⟨instruction, asked, performed⟩ := Option.bind_eq_some_iff.mp taken
  exact perform_exclusive u t a.1 exclusive instruction
    (bracketed _ _ _ _ _ (exclusive.inside a.1) exclusive.good asked) performed

end Bracketed

/-! Shared data that are in order whenever nobody holds the mutex. The sections are numbered
in the order in which the mutex was taken, and the order of the data depends on their number.
What is known at a place of the holder may be lost when it goes on, at the other places it
has to outlast updates. -/
section Resources

/-- `sections`, how many sections there have been, and `number`, that of each thread's last
one, are history. -/
structure Numbered (Thread Place Shared : Type*) where
  threads : State Thread Place Shared
  sections : Nat
  number : Thread → Nat

/-- A thread that takes the mutex begins the next section. -/
def Numbered.record (s : Numbered Thread Place Shared) (w : Thread) :
    Instruction Place Shared → State Thread Place Shared → Numbered Thread Place Shared
  | .lock _, t =>
      { threads := t
        sections := s.sections + 1
        number := Function.update s.number w s.sections }
  | _, t => { s with threads := t }

def numberedStep (code : Thread → Input → Shared → Place → Option (Instruction Place Shared))
    (s : Numbered Thread Place Shared) (a : Thread × Input) :
    Option (Numbered Thread Place Shared) :=
  (code a.1 a.2 s.threads.shared (s.threads.place a.1)).bind fun instruction =>
    (perform s.threads a.1 instruction).map (s.record a.1 instruction)

variable {code : Thread → Input → Shared → Place → Option (Instruction Place Shared)}
  {holds : Place → Bool} {resource : Nat → Shared → Prop} {known : Nat → Place → Shared → Prop}

/-- `k` is the number of the section the thread is in, or was in last. -/
def Instruction.Respects (holds : Place → Bool) (resource : Nat → Shared → Prop)
    (known : Nat → Place → Shared → Prop) (k : Nat) (place : Place) (shared : Shared) :
    Instruction Place Shared → Prop
  | .lock next =>
      holds place = false ∧ holds next = true ∧
        ∀ number, resource number shared → known number next shared
  | .unlock next =>
      holds place = true ∧ holds next = false ∧ resource (k + 1) shared ∧ known k next shared
  | .read next => holds next = holds place ∧ known k next shared
  | .update next after =>
      holds place = true ∧ holds next = true ∧ known k next after ∧
        ∀ number other, holds other = false → known number other shared →
          known number other after

def Sectioned (code : Thread → Input → Shared → Place → Option (Instruction Place Shared))
    (holds : Place → Bool) (resource : Nat → Shared → Prop)
    (known : Nat → Place → Shared → Prop) : Prop :=
  ∀ w input shared k place instruction, known k place shared →
    code w input shared place = some instruction →
      instruction.Respects holds resource known k place shared

structure InOrder (holds : Place → Bool) (resource : Nat → Shared → Prop)
    (known : Nat → Place → Shared → Prop) (s : Numbered Thread Place Shared) : Prop where
  owner : ∀ w, holds (s.threads.place w) = true ↔ s.threads.mutex = some w
  known : ∀ w, known (s.number w) (s.threads.place w) s.threads.shared
  free : s.threads.mutex = none → resource s.sections s.threads.shared
  held : ∀ w, s.threads.mutex = some w → s.sections = s.number w + 1

theorem goto_known (known : Nat → Place → Shared → Prop) (s : State Thread Place Shared)
    (number : Thread → Nat) (w : Thread) (next : Place) (shared : Shared)
    (own : known (number w) next shared)
    (others : ∀ v, v ≠ w → known (number v) (s.place v) shared) :
    ∀ v, known (number v) ((s.goto w next).place v) shared := by
  intro v
  by_cases same : v = w
  · subst same
    rwa [State.goto_place]
  · rw [State.goto_other s w v next same]
    exact others v same

theorem numbered_in_order (sectioned : Sectioned code holds resource known)
    (s : Numbered Thread Place Shared) (a : Thread × Input) (t : Numbered Thread Place Shared)
    (order : InOrder holds resource known s) (taken : numberedStep code s a = some t) :
    InOrder holds resource known t := by
  obtain ⟨instruction, asked, moved⟩ := Option.bind_eq_some_iff.mp taken
  obtain ⟨after, performed, rfl⟩ := Option.map_eq_some_iff.mp moved
  have respects := sectioned _ _ _ _ _ _ (order.known a.1) asked
  have owner := order.owner
  cases instruction with
  | lock next =>
      obtain ⟨free, performed⟩ := Option.ite_none_right_eq_some.mp performed
      obtain rfl := Option.some.inj performed
      rw [Option.isNone_iff_eq_none] at free
      obtain ⟨_, held, enters⟩ := respects
      refine ⟨?_, ?_, nofun, ?_⟩
      · apply goto_owner s.threads a.1 next (some a.1) (by simp [held])
        intro v other
        simp [owner v, free, other.symm]
      · apply goto_known known s.threads (Function.update s.number a.1 s.sections) a.1 next
          s.threads.shared
        · rw [Function.update_self]
          exact enters _ (order.free free)
        · intro v other
          rw [Function.update_of_ne other]
          exact order.known v
      · intro w mine
        obtain rfl := Option.some.inj mine
        simp [Numbered.record]
  | unlock next =>
      obtain rfl := Option.some.inj performed
      obtain ⟨held, released, tidy, later⟩ := respects
      have mine := (owner a.1).mp held
      refine ⟨?_, goto_known known s.threads s.number a.1 next s.threads.shared later
        fun v _ => order.known v, fun _ => ?_, nofun⟩
      · apply goto_owner s.threads a.1 next none (by simp [released])
        intro v other
        simp [owner v, mine, other.symm]
      · simp only [Numbered.record, order.held a.1 mine]
        exact tidy
  | read next =>
      obtain rfl := Option.some.inj performed
      obtain ⟨same, later⟩ := respects
      refine ⟨?_, goto_known known s.threads s.number a.1 next s.threads.shared later
        fun v _ => order.known v, order.free, order.held⟩
      exact goto_owner s.threads a.1 next s.threads.mutex (by rw [same]; exact owner a.1)
        fun v _ => owner v
  | update next shared =>
      obtain rfl := Option.some.inj performed
      obtain ⟨held, still, own, outlasts⟩ := respects
      have mine := (owner a.1).mp held
      refine ⟨goto_owner s.threads a.1 next s.threads.mutex (by simp [still, mine])
        fun v _ => owner v, ?_, fun free => absurd (mine.symm.trans free) (by simp), order.held⟩
      apply goto_known known s.threads s.number a.1 next shared own
      -- no other thread holds the lock, so what they know survives the update
      intro v other
      apply outlasts _ _ _ (order.known v)
      rw [← Bool.not_eq_true, owner v, mine]
      exact fun same => other (Option.some.inj same).symm

end Resources

/-! Runs of one thread, while the others stand still. -/
section Alone
variable {code : Thread → Input → Shared → Place → Option (Instruction Place Shared)}
  {goal : State Thread Place Shared → Prop} {w : Thread}

def Alone (code : Thread → Input → Shared → Place → Option (Instruction Place Shared))
    (w : Thread) (goal : State Thread Place Shared → Prop) (s : State Thread Place Shared) : Prop :=
  ∃ (inputs : List Input) (t : State Thread Place Shared),
    run (step code) s (inputs.map fun input => (w, input)) = some t ∧ goal t

theorem alone_here (s : State Thread Place Shared) (here : goal s) : Alone code w goal s :=
  ⟨[], s, rfl, here⟩

theorem alone_read (s : State Thread Place Shared) (input : Input) (next : Place)
    (asked : code w input s.shared (s.place w) = some (.read next))
    (rest : Alone code w goal (s.goto w next)) : Alone code w goal s := by
  obtain ⟨inputs, t, reached, there⟩ := rest
  refine ⟨input :: inputs, t, ?_, there⟩
  rw [List.map_cons, run, step, asked]
  exact reached

theorem alone_trans (s : State Thread Place Shared) (via : State Thread Place Shared → Prop)
    (first : Alone code w via s) (second : ∀ t, via t → Alone code w goal t) :
    Alone code w goal s := by
  obtain ⟨before, t, reached, there⟩ := first
  obtain ⟨after, u, moved, done⟩ := second t there
  refine ⟨before ++ after, u, ?_, done⟩
  rw [List.map_append, run_append, reached, Option.bind_some, moved]

end Alone
end PteSysbench.LockDiscipline
