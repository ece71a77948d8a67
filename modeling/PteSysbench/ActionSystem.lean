import Mathlib.Algebra.BigOperators.Group.Finset.Basic
import Mathlib.Data.List.Basic

/-!
Systems whose steps are labelled by actions and may refuse. A condition on
steps (`Guarded`) and a property of states (`Always`) are both read along one
schedule; an invariant carries the first to the second and, where a step outside
the condition leaves the property, back again.
-/

namespace PteSysbench.ActionSystem

universe u
variable {State Action : Type*}

/-- The state after a schedule, when no step of it refuses. -/
def run (step : State → Action → Option State) : State → List Action → Option State
  | s, [] => some s
  | s, a :: rest => (step s a).bind fun t => run step t rest

/-- Every step the schedule takes meets the condition where it is taken. -/
def Guarded (step : State → Action → Option State) (guard : State → Action → Prop) :
    State → List Action → Prop
  | _, [] => True
  | s, a :: rest => ∀ t, step s a = some t → guard s a ∧ Guarded step guard t rest

/-- Every state of the schedule, the first one included, has the property. -/
def Always (step : State → Action → Option State) (good : State → Prop) :
    State → List Action → Prop
  | s, [] => good s
  | s, a :: rest => good s ∧ ∀ t, step s a = some t → Always step good t rest

section Runs
variable {step : State → Action → Option State} {guard : State → Action → Prop}
  {good inv : State → Prop}

theorem run_append (s : State) (before after : List Action) :
    run step s (before ++ after) = (run step s before).bind fun t => run step t after := by
  induction before generalizing s with
  | nil => rfl
  | cons a rest ih =>
      cases taken : step s a with
      | none => simp only [List.cons_append, run, taken, Option.bind_none]
      | some u => simp only [List.cons_append, run, taken, Option.bind_some, ih]

theorem always_head (s : State) (schedule : List Action) (all : Always step good s schedule) :
    good s := by
  cases schedule with
  | nil => exact all
  | cons a rest => exact all.1

theorem always_mono (weaker : ∀ s, inv s → good s) (s : State) (schedule : List Action)
    (all : Always step inv s schedule) : Always step good s schedule := by
  induction schedule generalizing s with
  | nil => exact weaker s all
  | cons a rest ih => exact ⟨weaker s all.1, fun t taken => ih t (all.2 t taken)⟩

/-- A property of the whole schedule holds of every state a prefix of it reaches. -/
theorem always_reached (s t : State) (before after : List Action)
    (all : Always step good s (before ++ after)) (reached : run step s before = some t) :
    good t := by
  induction before generalizing s with
  | nil =>
      cases reached
      exact always_head _ after all
  | cons a rest ih =>
      cases taken : step s a with
      | none => simp [run, taken] at reached
      | some u => exact ih u (all.2 u taken) (by simpa [run, taken] using reached)

/-- Some schedule leads from one state to the other. -/
def Reaches (step : State → Action → Option State) (s t : State) : Prop :=
  ∃ schedule, run step s schedule = some t

theorem reaches_step {s t : State} (a : Action) (taken : step s a = some t) :
    Reaches step s t := ⟨[a], by simp [run, taken]⟩

theorem reaches_trans {s t u : State} (first : Reaches step s t) (second : Reaches step t u) :
    Reaches step s u := by
  obtain ⟨before, reached⟩ := first
  obtain ⟨after, left⟩ := second
  exact ⟨before ++ after, by rw [run_append, reached, Option.bind_some, left]⟩

theorem good_of_reaches {s t : State} (all : ∀ schedule, Always step good s schedule)
    (reached : Reaches step s t) : good t := by
  obtain ⟨schedule, reached⟩ := reached
  have whole := all (schedule ++ [])
  exact always_reached s t schedule [] whole reached

theorem guarded_keeps (preserved : ∀ s a t, inv s → guard s a → step s a = some t → inv t)
    (s : State) (schedule : List Action) (start : inv s)
    (guarded : Guarded step guard s schedule) : Always step inv s schedule := by
  induction schedule generalizing s with
  | nil => exact start
  | cons a rest ih =>
      refine ⟨start, fun t taken => ?_⟩
      obtain ⟨here, later⟩ := guarded t taken
      exact ih t (preserved s a t start here taken) later

/-- A condition on the actions alone needs no look at the states. -/
theorem guarded_of_free (s : State) (schedule : List Action)
    (free : ∀ a ∈ schedule, ∀ s, guard s a) : Guarded step guard s schedule := by
  induction schedule generalizing s with
  | nil => trivial
  | cons a rest ih =>
      intro t _
      refine ⟨free a List.mem_cons_self s, ih t fun b member => ?_⟩
      exact free b (List.mem_cons_of_mem a member)

/-- Within a condition under which the property after a step needs the one before it,
a schedule that keeps the property meets the latter. -/
theorem guarded_of_always {within : State → Action → Prop}
    (needed : ∀ s a t, within s a → step s a = some t → good t → guard s a)
    (s : State) (schedule : List Action) (inside : Guarded step within s schedule)
    (all : Always step good s schedule) : Guarded step guard s schedule := by
  induction schedule generalizing s with
  | nil => trivial
  | cons a rest ih =>
      intro t taken
      obtain ⟨here, later⟩ := inside t taken
      have after := all.2 t taken
      exact ⟨needed s a t here taken (always_head t rest after), ih t later after⟩

/-- Conditions that agree wherever the invariant holds are met along the same schedules. -/
theorem guarded_congr {other : State → Action → Prop}
    (preserved : ∀ s a t, inv s → step s a = some t → inv t)
    (same : ∀ s a t, inv s → step s a = some t → (guard s a ↔ other s a))
    (s : State) (schedule : List Action) (start : inv s) :
    Guarded step guard s schedule ↔ Guarded step other s schedule := by
  induction schedule generalizing s with
  | nil => rfl
  | cons a rest ih =>
      constructor
      · intro guarded t taken
        obtain ⟨here, later⟩ := guarded t taken
        exact ⟨(same s a t start taken).mp here, (ih t (preserved s a t start taken)).mp later⟩
      · intro guarded t taken
        obtain ⟨here, later⟩ := guarded t taken
        exact ⟨(same s a t start taken).mpr here, (ih t (preserved s a t start taken)).mpr later⟩

theorem invariant_keeps (preserved : ∀ s a t, inv s → step s a = some t → inv t)
    (s : State) (schedule : List Action) (start : inv s) : Always step inv s schedule := by
  induction schedule generalizing s with
  | nil => exact start
  | cons a rest ih => exact ⟨start, fun t taken => ih t (preserved s a t start taken)⟩

/-- When the property after a step needs the condition before it, the property
along a schedule is the condition along it. -/
theorem always_iff_guarded (safe : ∀ s, inv s → good s)
    (preserved : ∀ s a t, inv s → guard s a → step s a = some t → inv t)
    (needed : ∀ s a t, inv s → step s a = some t → good t → guard s a)
    (s : State) (schedule : List Action) (start : inv s) :
    Always step good s schedule ↔ Guarded step guard s schedule := by
  constructor
  · intro all
    induction schedule generalizing s with
    | nil => trivial
    | cons a rest ih =>
        intro t taken
        have here := needed s a t start taken (always_head t rest (all.2 t taken))
        exact ⟨here, ih t (preserved s a t start here taken) (all.2 t taken)⟩
  · intro guarded
    exact always_mono safe s schedule (guarded_keeps preserved s schedule start guarded)
end Runs

/-! Steps that may fail with a message. -/
section Fallible
variable {Failure : Type*} {Result Next : Type u}

theorem bind_ok (first : Except Failure Result) (next : Result → Except Failure Next)
    (value : Next) (done : (first >>= next) = .ok value) :
    ∃ result, first = .ok result ∧ next result = .ok value := by
  cases first with
  | error failure => cases done
  | ok result => exact ⟨result, rfl, done⟩
end Fallible

/-! Totals of all parties. -/
section Totals
variable {Party Amount : Type*} [Fintype Party] [DecidableEq Party] [AddCommMonoid Amount]

/-- Where one party moves, the total moves with its amount. -/
theorem total_moved (before after : Party → Amount) (one : Party)
    (others : ∀ other, other ≠ one → after other = before other) :
    ∑ party, after party + before one = ∑ party, before party + after one := by
  have rest : ∑ party ∈ Finset.univ.erase one, after party =
      ∑ party ∈ Finset.univ.erase one, before party :=
    Finset.sum_congr rfl fun other member => others other (Finset.ne_of_mem_erase member)
  rw [← Finset.add_sum_erase _ after (Finset.mem_univ one), rest,
    ← Finset.add_sum_erase _ before (Finset.mem_univ one)]
  rw [add_right_comm, add_comm (after one), add_right_comm, add_comm (before one)]

end Totals
end PteSysbench.ActionSystem
