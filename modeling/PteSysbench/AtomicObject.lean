import PteSysbench.ActionSystem
import Mathlib.Logic.Function.Basic

/-!
Objects that many parties use at once. An atomic object takes each operation at one
moment between its call and its answer. What a system of small steps shows is
linearizable when an atomic object can show the same; a map of the system's states
to states of the object that matches every step is enough for that.
-/

namespace PteSysbench.AtomicObject

open ActionSystem

variable {Contents Operation Result Party : Type*}

/-- A sequential object: what an operation makes of the contents, and its answer. -/
structure Object (Contents Operation Result : Type*) where
  start : Contents
  apply : Contents → Operation → Contents × Result

/-- What is seen of an operation from outside. -/
inductive Event (Party Operation Result : Type*) where
  | call (party : Party) (operation : Operation)
  | answer (party : Party) (result : Result)
  deriving DecidableEq

inductive Status (Operation Result : Type*) where
  | idle
  | called (operation : Operation)
  | done (result : Result)
  deriving DecidableEq

/-- `take` is the moment at which the operation of a party happens. -/
inductive Move (Party Operation Result : Type*) where
  | call (party : Party) (operation : Operation)
  | take (party : Party)
  | answer (party : Party) (result : Result)

def Move.shown : Move Party Operation Result → Option (Event Party Operation Result)
  | .call party operation => some (.call party operation)
  | .take _ => none
  | .answer party result => some (.answer party result)

@[ext]
structure AtomicState (Party Contents Operation Result : Type*) where
  contents : Contents
  status : Party → Status Operation Result

section Atomic
variable [DecidableEq Party]

/-- The atomic object. It answers what the operation answered, to whoever called it. -/
def atomicStep [DecidableEq Result] (object : Object Contents Operation Result)
    (s : AtomicState Party Contents Operation Result) :
    Move Party Operation Result → Option (AtomicState Party Contents Operation Result)
  | .call party operation =>
      match s.status party with
      | .idle => some { s with status := Function.update s.status party (.called operation) }
      | _ => none
  | .take party =>
      match s.status party with
      | .called operation =>
          let (contents, result) := object.apply s.contents operation
          some { contents, status := Function.update s.status party (.done result) }
      | _ => none
  | .answer party result =>
      match s.status party with
      | .done known =>
          if known = result then
            some { s with status := Function.update s.status party .idle }
          else none
      | _ => none

def initial (object : Object Contents Operation Result) :
    AtomicState Party Contents Operation Result :=
  { contents := object.start, status := fun _ => .idle }

variable [DecidableEq Result] {object : Object Contents Operation Result}

/-- Moves of the atomic object that lead from one state to another and show this. -/
def Matches (object : Object Contents Operation Result)
    (before after : AtomicState Party Contents Operation Result)
    (shown : List (Event Party Operation Result)) : Prop :=
  ∃ moves, run (atomicStep object) before moves = some after ∧ moves.filterMap Move.shown = shown

/-- The atomic object can show this from its start on. -/
def Linearizable (object : Object Contents Operation Result)
    (shown : List (Event Party Operation Result)) : Prop :=
  ∃ final, Matches object (initial object) final shown

variable {before after final : AtomicState Party Contents Operation Result}
  {party : Party} {operation : Operation} {result : Result}

theorem matches_silent (same : after = before) : Matches object before after [] :=
  ⟨[], by rw [same]; rfl, rfl⟩

theorem matches_one (move : Move Party Operation Result)
    (moved : atomicStep object before move = some after) :
    Matches object before after move.shown.toList := by
  refine ⟨[move], by simp [run, moved], ?_⟩
  cases move <;> rfl

theorem matches_call (idle : before.status party = .idle) (kept : after.contents = before.contents)
    (status : after.status = Function.update before.status party (.called operation)) :
    Matches object before after [.call party operation] := by
  refine matches_one (.call party operation) ?_
  simp only [atomicStep, idle, Option.some.injEq]
  exact AtomicState.ext kept.symm status.symm

theorem matches_take (party : Party) (operation : Operation) (result : Result)
    (called : before.status party = .called operation)
    (applied : object.apply before.contents operation = (after.contents, result))
    (status : after.status = Function.update before.status party (.done result)) :
    Matches object before after [] := by
  refine matches_one (.take party) ?_
  simp only [atomicStep, called, applied, Option.some.injEq]
  exact AtomicState.ext rfl status.symm

theorem matches_answer (done : before.status party = .done result)
    (kept : after.contents = before.contents)
    (status : after.status = Function.update before.status party .idle) :
    Matches object before after [.answer party result] := by
  refine matches_one (.answer party result) ?_
  simp only [atomicStep, done, ↓reduceIte, Option.some.injEq]
  exact AtomicState.ext kept.symm status.symm

theorem matches_trans {first second : List (Event Party Operation Result)}
    (one : Matches object before after first) (two : Matches object after final second) :
    Matches object before final (first ++ second) := by
  obtain ⟨moves, reached, shown⟩ := one
  obtain ⟨more, left, rest⟩ := two
  exact ⟨moves ++ more, by rw [run_append, reached, Option.bind_some, left],
    by rw [List.filterMap_append, shown, rest]⟩
end Atomic

/-! Systems that implement an object. -/
section Systems
variable {System Action : Type*} [DecidableEq Party] [DecidableEq Result]
  {object : Object Contents Operation Result}

/-- What a schedule of a system shows, up to the first step that refuses. -/
def trace (next : System → Action → Option System)
    (shows : System → Action → Option (Event Party Operation Result)) :
    System → List Action → List (Event Party Operation Result)
  | _, [] => []
  | s, a :: rest =>
      match next s a with
      | none => []
      | some t => (shows s a).toList ++ trace next shows t rest

variable {next : System → Action → Option System} {guard : System → Action → Prop}
  {shows : System → Action → Option (Event Party Operation Result)} {inv : System → Prop}

/-- A map to states of the object under which moves of the object match every step. -/
theorem trace_matches (atomic : System → AtomicState Party Contents Operation Result)
    (preserved : ∀ s a t, inv s → guard s a → next s a = some t → inv t)
    (matched : ∀ s a t, inv s → guard s a → next s a = some t →
      Matches object (atomic s) (atomic t) (shows s a).toList)
    (s : System) (schedule : List Action) (start : inv s)
    (guarded : Guarded next guard s schedule) :
    ∃ final, Matches object (atomic s) final (trace next shows s schedule) := by
  induction schedule generalizing s with
  | nil => exact ⟨atomic s, matches_silent rfl⟩
  | cons a rest ih =>
      cases taken : next s a with
      | none => exact ⟨atomic s, by simpa [trace, taken] using matches_silent rfl⟩
      | some t =>
          obtain ⟨here, later⟩ := guarded t taken
          obtain ⟨final, whole⟩ := ih t (preserved s a t start here taken) later
          refine ⟨final, ?_⟩
          simp only [trace, taken]
          exact matches_trans (matched s a t start here taken) whole

theorem linearizable_of_map (atomic : System → AtomicState Party Contents Operation Result)
    (preserved : ∀ s a t, inv s → guard s a → next s a = some t → inv t)
    (matched : ∀ s a t, inv s → guard s a → next s a = some t →
      Matches object (atomic s) (atomic t) (shows s a).toList)
    (s : System) (schedule : List Action) (start : inv s) (fresh : atomic s = initial object)
    (guarded : Guarded next guard s schedule) :
    Linearizable object (trace next shows s schedule) := by
  have reached := trace_matches atomic preserved matched s schedule start guarded
  rwa [fresh] at reached
end Systems

/-! A queue that holds up to `capacity` entries. -/
section Queues
variable {Entry : Type*}

inductive QueueOperation (Entry : Type*) where
  | enqueue (entry : Entry)
  | dequeue

inductive QueueResult (Entry : Type*) where
  | accepted (room : Bool)
  | taken (entry : Option Entry)
  deriving DecidableEq

def boundedQueue (capacity : Nat) :
    Object (List Entry) (QueueOperation Entry) (QueueResult Entry) where
  start := []
  apply contents
    | .enqueue entry =>
        if contents.length < capacity then (contents ++ [entry], .accepted true)
        else (contents, .accepted false)
    | .dequeue =>
        match contents with
        | [] => ([], .taken none)
        | entry :: rest => (rest, .taken (some entry))

theorem enqueue_room {capacity : Nat} {contents : List Entry} (entry : Entry)
    (room : contents.length < capacity) :
    (boundedQueue capacity).apply contents (.enqueue entry) =
      (contents ++ [entry], .accepted true) := by
  simp [boundedQueue, room]

theorem enqueue_full {capacity : Nat} {contents : List Entry} (entry : Entry)
    (full : capacity ≤ contents.length) :
    (boundedQueue capacity).apply contents (.enqueue entry) = (contents, .accepted false) := by
  simp [boundedQueue, Nat.not_lt.mpr full]

theorem dequeue_empty {capacity : Nat} :
    (boundedQueue capacity).apply ([] : List Entry) .dequeue = ([], .taken none) := rfl

theorem dequeue_cons {capacity : Nat} (entry : Entry) (rest : List Entry) :
    (boundedQueue capacity).apply (entry :: rest) .dequeue = (rest, .taken (some entry)) := rfl
end Queues
end PteSysbench.AtomicObject
