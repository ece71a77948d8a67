import Mathlib.Data.List.Basic

/-!
Computations over a state that may throw; what one did to the state before it threw
stays done. A triple has one condition for the end and one for what is thrown.
-/

namespace PteSysbench.ThrowingScripts

abbrev Script (State Thrown Value : Type) := EStateM Thrown State Value

variable {State Thrown Value Next Item Entry : Type}

/-- Started where `before` holds, the script ends in `after` or throws into `thrown`. -/
def Meets (before : State → Prop) (script : Script State Thrown Value)
    (after : Value → State → Prop) (thrown : Thrown → State → Prop) : Prop :=
  ∀ s, before s → match script s with
    | .ok value t => after value t
    | .error error t => thrown error t

/-- A numeric loop whose body does not read the loop variable. -/
def times : Nat → Script State Thrown Unit → Script State Thrown Unit
  | 0, _ => pure ()
  | n + 1, body => do
      body
      times n body

/-! Rules. -/
section Rules
variable {before middle : State → Prop} {thrown : Thrown → State → Prop}

theorem meets_ok {script : Script State Thrown Value} {after : Value → State → Prop}
    (meets : Meets before script after thrown) {s t : State} {value : Value} (start : before s)
    (ended : script s = .ok value t) : after value t := by
  have here := meets s start
  rwa [ended] at here

theorem meets_error {script : Script State Thrown Value} {after : Value → State → Prop}
    (meets : Meets before script after thrown) {s t : State} {error : Thrown} (start : before s)
    (threw : script s = .error error t) : thrown error t := by
  have here := meets s start
  rwa [threw] at here

theorem meets_pure {after : Value → State → Prop} (value : Value)
    (holds : ∀ s, before s → after value s) : Meets before (pure value) after thrown :=
  holds

theorem meets_throw {after : Value → State → Prop} (error : Thrown)
    (holds : ∀ s, before s → thrown error s) : Meets before (throw error) after thrown :=
  holds

theorem meets_set {after : PUnit → State → Prop} (t : State)
    (holds : ∀ s, before s → after ⟨⟩ t) : Meets before (set t) after thrown :=
  holds

theorem meets_modify {after : PUnit → State → Prop} (update : State → State)
    (holds : ∀ s, before s → after ⟨⟩ (update s)) : Meets before (modify update) after thrown :=
  holds

theorem meets_modify_get {after : Value → State → Prop} (update : State → Value × State)
    (holds : ∀ s, before s → after (update s).1 (update s).2) :
    Meets before (modifyGet update) after thrown :=
  holds

theorem meets_bind {first : Script State Thrown Value} {second : Value → Script State Thrown Next}
    {between : Value → State → Prop} {after : Next → State → Prop}
    (one : Meets before first between thrown)
    (two : ∀ value, Meets (between value) (second value) after thrown) :
    Meets before (first >>= second) after thrown := by
  intro s start
  have here := one s start
  show match EStateM.bind first second s with
    | .ok value t => after value t
    | .error error t => thrown error t
  unfold EStateM.bind
  cases ended : first s with
  | ok value t =>
      rw [ended] at here
      exact two value t here
  | error error t =>
      rw [ended] at here
      exact here

theorem meets_weaken {script : Script State Thrown Value} {weak after : Value → State → Prop}
    {strong : State → Prop} {known : Thrown → State → Prop}
    (meets : Meets before script after known) (enters : ∀ s, strong s → before s)
    (ends : ∀ value s, after value s → weak value s)
    (throws : ∀ error s, known error s → thrown error s) : Meets strong script weak thrown := by
  intro s start
  have here := meets s (enters s start)
  cases ended : script s with
  | ok value t =>
      rw [ended] at here
      exact ends value t here
  | error error t =>
      rw [ended] at here
      exact throws error t here

/-- A fact that a condition implies may be used in the proof of its triple. -/
theorem meets_given {script : Script State Thrown Value} {after : Value → State → Prop}
    {fact : Prop} (known : ∀ s, before s → fact)
    (meets : fact → Meets before script after thrown) : Meets before script after thrown :=
  fun s start => meets (known s start) s start

/-- A state known to the condition may be named. -/
theorem meets_at {script : Script State Thrown Value} {after : Value → State → Prop}
    (meets : ∀ s, before s → Meets (fun t => t = s) script after thrown) :
    Meets before script after thrown :=
  fun s start => meets s start s rfl

/-- A value read from the state at the start may be named. -/
theorem meets_named {script : Script State Thrown Value} {after : Value → State → Prop}
    (read : State → Item) (meets : ∀ item, Meets (fun s => before s ∧ read s = item) script after
      thrown) : Meets before script after thrown :=
  fun s start => meets (read s) s ⟨start, rfl⟩

theorem meets_from {script : Script State Thrown Value} {after : Value → State → Prop} {s : State}
    (meets : Meets before script after thrown) (start : before s) :
    Meets (fun t => t = s) script after thrown := by
  rintro _ rfl
  exact meets _ start

theorem meets_read {script : State → Script State Thrown Value} {after : Value → State → Prop}
    (meets : ∀ s, before s → Meets (fun t => t = s) (script s) after thrown) :
    Meets before (get >>= script) after thrown :=
  fun s start => meets s start s rfl

/-- The first script returns a known value. -/
theorem meets_bind_known {first : Script State Thrown Value}
    {second : Value → Script State Thrown Next} {after : Next → State → Prop} {known : Value}
    (one : Meets before first (fun value s => value = known ∧ middle s) thrown)
    (two : Meets middle (second known) after thrown) :
    Meets before (first >>= second) after thrown :=
  meets_bind one fun _ s ⟨same, start⟩ => same ▸ two s start

/-- The first script ends with a fact that is no matter of the state. -/
theorem meets_bind_fact {first : Script State Thrown Unit} {second : Script State Thrown Next}
    {after : Next → State → Prop} {fact : Prop}
    (one : Meets before first (fun _ s => middle s ∧ fact) thrown)
    (two : fact → Meets middle second after thrown) :
    Meets before (first >>= fun _ => second) after thrown :=
  meets_bind one fun _ s start => two start.2 s start.1

theorem meets_ran {script : Script State Thrown Value} {after : Value → State → Prop} {s t : State}
    {value : Value} (ran : script s = .ok value t) (ended : after value t) :
    Meets (fun u => u = s) script after thrown := by
  rintro _ rfl
  rw [ran]
  exact ended

/-- The first script is run on the state named. -/
theorem meets_run {first : Script State Thrown Value} {second : Value → Script State Thrown Next}
    {after : Next → State → Prop} {s t : State} {value : Value} (ran : first s = .ok value t)
    (rest : Meets (fun u => u = t) (second value) after thrown) :
    Meets (fun u => u = s) (first >>= second) after thrown := by
  have one : Meets (fun u => u = s) first (fun known u => known = value ∧ u = t) thrown :=
    meets_ran ran ⟨rfl, rfl⟩
  exact meets_bind_known one rest

/-- A loop whose turns do no more than look at the state. -/
theorem for_each_looks {body : Item → Script State Thrown Unit} {s : State} (items : List Item)
    (turn : ∀ item ∈ items, body item s = .ok () s) : items.forM body s = .ok () s := by
  induction items with
  | nil => rfl
  | cons item rest ih =>
      have first := turn item List.mem_cons_self
      have later := ih fun other member => turn other (List.mem_cons_of_mem item member)
      show EStateM.bind (body item) (fun _ => rest.forM body) s = .ok () s
      rw [EStateM.bind, first]
      exact later

/-- One of its turns throws. -/
theorem for_each_throws {body : Item → Script State Thrown Unit} {s : State} (items : List Item)
    (turn : ∀ item ∈ items, body item s = .ok () s ∨ ∃ error, body item s = .error error s)
    {bad : Item} (member : bad ∈ items) (throws : body bad s ≠ .ok () s) :
    ∃ error, items.forM body s = .error error s := by
  induction items with
  | nil => exact absurd member List.not_mem_nil
  | cons item rest ih =>
      show ∃ error, EStateM.bind (body item) (fun _ => rest.forM body) s = .error error s
      rcases turn item List.mem_cons_self with looks | ⟨error, threw⟩
      · have later : bad ∈ rest := (List.mem_cons.mp member).resolve_left fun same =>
          throws (same ▸ looks)
        rw [EStateM.bind, looks]
        exact ih (fun other inside => turn other (List.mem_cons_of_mem item inside)) later
      · exact ⟨error, by rw [EStateM.bind, threw]⟩

theorem meets_threw {script : Script State Thrown Value} {after : Value → State → Prop}
    {s t : State} {error : Thrown} (threw : script s = .error error t) (known : thrown error t) :
    Meets (fun u => u = s) script after thrown := by
  rintro _ rfl
  rw [threw]
  exact known

theorem meets_set_then {script : Script State Thrown Value} {after : Value → State → Prop}
    (t : State) (meets : Meets (fun s => s = t) script after thrown) :
    Meets before (set t >>= fun _ => script) after thrown :=
  fun _ _ => meets t rfl

theorem meets_modify_then {script : Script State Thrown Value} {after : Value → State → Prop}
    (update : State → State)
    (meets : ∀ s, before s → Meets (fun t => t = update s) script after thrown) :
    Meets before (modify update >>= fun _ => script) after thrown :=
  fun s start => meets s start (update s) rfl

/-- What a loop over a list keeps may speak of the items it is through with. -/
theorem meets_for_each (keeps : List Item → State → Prop) (body : Item → Script State Thrown Unit)
    (through items : List Item)
    (turn : ∀ passed item rest, through ++ items = passed ++ item :: rest →
      Meets (keeps passed) (body item) (fun _ => keeps (passed ++ [item])) thrown) :
    Meets (keeps through) (items.forM body) (fun _ => keeps (through ++ items)) thrown := by
  induction items generalizing through with
  | nil =>
      rw [List.append_nil]
      exact meets_pure () fun _ kept => kept
  | cons item rest ih =>
      have whole : through ++ item :: rest = through ++ [item] ++ rest := by
        rw [List.append_assoc, List.singleton_append]
      rw [whole]
      refine meets_bind (turn through item rest rfl) fun _ => ih (through ++ [item]) ?_
      intro passed other later split
      exact turn passed other later (whole.trans split)

/-- Two triples of one script. -/
theorem meets_both {script : Script State Thrown Value} {start : State → Prop}
    {one two : Value → State → Prop} {thrownOne thrownTwo : Thrown → State → Prop}
    (first : Meets before script one thrownOne) (second : Meets start script two thrownTwo) :
    Meets (fun s => before s ∧ start s) script (fun value s => one value s ∧ two value s)
      fun error s => thrownOne error s ∧ thrownTwo error s := by
  intro s ⟨left, right⟩
  have here := first s left
  have there := second s right
  cases ended : script s with
  | ok value t =>
      rw [ended] at here there
      exact ⟨here, there⟩
  | error error t =>
      rw [ended] at here there
      exact ⟨here, there⟩
end Rules

/-! Loops whose turns add to a log. -/
section Logs
variable {whole begun : Item → List Entry → Prop}

/-- A whole part for each of the items. -/
def Complete (whole : Item → List Entry → Prop) (items : List Item) (entries : List Entry) : Prop :=
  ∃ parts, List.Forall₂ whole items parts ∧ entries = parts.flatten

/-- Whole parts up to some item, and for that one a part that was begun. -/
def BrokenOff (whole begun : Item → List Entry → Prop) (items : List Item)
    (entries : List Entry) : Prop :=
  ∃ passed item rest front part, items = passed ++ item :: rest ∧ Complete whole passed front ∧
    begun item part ∧ entries = front ++ part

theorem complete_nil : Complete whole ([] : List Item) [] := ⟨[], .nil, rfl⟩

theorem complete_cons {item : Item} {items : List Item} {part entries : List Entry}
    (first : whole item part) (complete : Complete whole items entries) :
    Complete whole (item :: items) (part ++ entries) := by
  obtain ⟨parts, each, rfl⟩ := complete
  exact ⟨part :: parts, .cons first each, rfl⟩

theorem broken_off_here {item : Item} (rest : List Item) {part : List Entry}
    (first : begun item part) : BrokenOff whole begun (item :: rest) part :=
  ⟨[], item, rest, [], part, rfl, complete_nil, first, rfl⟩

theorem broken_off_cons {item : Item} {items : List Item} {part entries : List Entry}
    (first : whole item part) (broken : BrokenOff whole begun items entries) :
    BrokenOff whole begun (item :: items) (part ++ entries) := by
  obtain ⟨passed, other, rest, front, last, rfl, complete, isBegun, rfl⟩ := broken
  exact ⟨item :: passed, other, rest, part ++ front, last, rfl, complete_cons first complete,
    isBegun, (List.append_assoc _ _ _).symm⟩

/-- A turn that ends has logged a whole part, one that throws has begun a part. -/
theorem meets_for_each_logged (keeps : State → Prop) (log : State → List Entry)
    (body : Item → Script State Thrown Unit) (items : List Item)
    (turn : ∀ item ∈ items, ∀ front, Meets (fun s => keeps s ∧ log s = front) (body item)
      (fun _ s => keeps s ∧ ∃ part, whole item part ∧ log s = front ++ part)
      fun _ s => ∃ part, begun item part ∧ log s = front ++ part) (front : List Entry) :
    Meets (fun s => keeps s ∧ log s = front) (items.forM body)
      (fun _ s => keeps s ∧ ∃ entries, Complete whole items entries ∧ log s = front ++ entries)
      fun _ s => ∃ entries, BrokenOff whole begun items entries ∧ log s = front ++ entries := by
  induction items generalizing front with
  | nil => exact meets_pure () fun s ⟨kept, logged⟩ => ⟨kept, [], complete_nil, by simp [logged]⟩
  | cons item rest ih =>
      have first : Meets (fun s => keeps s ∧ log s = front) (body item)
          (fun _ s => keeps s ∧ ∃ part, whole item part ∧ log s = front ++ part)
          fun _ s => ∃ entries, BrokenOff whole begun (item :: rest) entries ∧
            log s = front ++ entries :=
        meets_weaken (turn item List.mem_cons_self front) (fun _ start => start)
          (fun _ _ ended => ended)
          fun _ _ ⟨part, isBegun, logged⟩ => ⟨part, broken_off_here rest isBegun, logged⟩
      refine meets_bind first fun _ => meets_at fun s ⟨kept, part, isWhole, logged⟩ => ?_
      have later := ih (fun other member => turn other (List.mem_cons_of_mem item member))
        (front ++ part)
      refine meets_weaken (meets_from later ⟨kept, logged⟩) (fun _ start => start) ?_ ?_
      · rintro _ t ⟨still, entries, complete, ended⟩
        exact ⟨still, part ++ entries, complete_cons isWhole complete, by simp [ended]⟩
      · rintro _ t ⟨entries, broken, ended⟩
        exact ⟨part ++ entries, broken_off_cons isWhole broken, by simp [ended]⟩
end Logs

/-! Scripts that leave a part of the state alone. -/
section Frames
variable {read : State → Item}

def Frames (read : State → Item) (script : Script State Thrown Value) : Prop :=
  ∀ item, Meets (fun s => read s = item) script (fun _ s => read s = item)
    fun _ s => read s = item

theorem frames_pure (value : Value) : Frames read (pure value : Script State Thrown Value) :=
  fun _ => meets_pure value fun _ same => same

theorem frames_throw (error : Thrown) :
    Frames read (throw error : Script State Thrown Value) :=
  fun _ => meets_throw error fun _ same => same

theorem frames_bind {first : Script State Thrown Value}
    {second : Value → Script State Thrown Next} (one : Frames read first)
    (two : ∀ value, Frames read (second value)) : Frames read (first >>= second) :=
  fun item => meets_bind (one item) fun value => two value item

theorem frames_for_each (body : Entry → Script State Thrown Unit) (items : List Entry)
    (turn : ∀ item, Frames read (body item)) : Frames read (items.forM body) := by
  induction items with
  | nil => exact frames_pure ()
  | cons item rest ih => exact frames_bind (turn item) fun _ => ih

/-- A script that looks at the state first frames what it frames from the state it saw. -/
theorem frames_read {script : State → Script State Thrown Value}
    (frames : ∀ s, Meets (fun t => t = s) (script s) (fun _ t => read t = read s)
      fun _ t => read t = read s) : Frames read (get >>= script) := by
  refine fun item => meets_read fun s same => ?_
  subst same
  exact frames s

theorem frames_from {script : Script State Thrown Value} (frames : Frames read script)
    (s : State) : Meets (fun t => t = s) script (fun _ t => read t = read s)
      fun _ t => read t = read s :=
  meets_from (frames (read s)) rfl
end Frames
end PteSysbench.ThrowingScripts
