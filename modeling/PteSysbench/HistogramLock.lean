import PteSysbench.SbHistogram

/-!
The write lock of a histogram. Every call takes it first and releases it last;
the early return of `sb_histogram_print` leaves in between, and keeps it.
-/

namespace PteSysbench.HistogramLock

open ActionSystem SbHistogram

variable {size : Nat} {s t : State size}

/-- The lock is released before it is taken the next time. -/
def holdsLock : List (Instr size) → Bool
  | [] => false
  | .lock :: _ => false
  | .unlock :: _ => true
  | _ :: rest => holdsLock rest

/-- Locks and unlocks alternate, and the early return comes between them. -/
def Alternates : List (Instr size) → Prop
  | [] => True
  | .lock :: rest => holdsLock rest = true ∧ Alternates rest
  | .unlock :: rest => holdsLock rest = false ∧ Alternates rest
  | .returnIfEmpty :: rest => holdsLock rest = true ∧ Alternates rest
  | _ :: rest => Alternates rest

def lockFree : Instr size → Bool
  | .lock | .unlock | .returnIfEmpty => false
  | _ => true

/-- No call has kept the lock, and the call in progress, if there is one, returns,
whatever the lock would do in a thread that has it. -/
structure Released (s : State size) : Prop where
  free : s.todo = [] → s.locked = false
  returns : ∀ relock, ∃ steps t, steps ≤ s.todo.length ∧
    run step s (List.replicate steps (.proceed relock)) = some t ∧ t.todo = []

/-- `sb_histogram_print` finds some bucket with a count. -/
def PrintsCounts (s : State size) : Action → Prop
  | .proceed _ => ∀ rest, s.todo = .returnIfEmpty :: rest → ∃ i, s.cumulativeArray i ≠ 0
  | _ => True

/-! The lock in the operations. -/
section Programs

theorem holds_lock_free (body rest : List (Instr size))
    (free : ∀ instr ∈ body, lockFree instr = true) :
    holdsLock (body ++ rest) = holdsLock rest := by
  induction body with
  | nil => rfl
  | cons instr tail ih =>
      have tailFree := ih fun other member => free other (List.mem_cons_of_mem _ member)
      have head := free instr List.mem_cons_self
      cases instr <;> first | exact tailFree | cases head

theorem alternates_lock_free (body rest : List (Instr size))
    (free : ∀ instr ∈ body, lockFree instr = true) :
    Alternates (body ++ rest) ↔ Alternates rest := by
  induction body with
  | nil => rfl
  | cons instr tail ih =>
      have tailFree := ih fun other member => free other (List.mem_cons_of_mem _ member)
      have head := free instr List.mem_cons_self
      cases instr <;> first | exact tailFree | cases head

theorem drain_lock_free (keep : Fin size → Instr size) (slots : List Slot)
    (kept : ∀ i, lockFree (keep i) = true) :
    ∀ instr ∈ slots.flatMap (drain keep), lockFree instr = true :=
  drain_forall keep slots (fun _ _ => rfl) kept

theorem merge_lock_free :
    ∀ instr ∈ (mergeIntermediateIntoCumulative : List (Instr size)), lockFree instr = true :=
  merge_forall rfl (fun _ _ => rfl) (fun _ => rfl) rfl

/-- An operation takes the lock, works without it in mind and ends with `last`. -/
theorem locked_body (body last : List (Instr size))
    (free : ∀ instr ∈ body, lockFree instr = true) (held : holdsLock last = true)
    (ends : Alternates last) : Alternates (.lock :: (body ++ last)) :=
  ⟨by rw [holds_lock_free body _ free, held], (alternates_lock_free body _ free).mpr ends⟩

theorem program_alternates (operation : Operation) :
    Alternates (program operation : List (Instr size)) := by
  cases operation with
  | getPctIntermediate percentile =>
      have alternates := locked_body (.zeroNevents :: (drain .storeTemp 0 ++
        ((List.finRange nslots).drop 1).flatMap (drain .addTemp) ++ [.rankTemp percentile] ++
        (List.finRange size).map .pour ++ [.addNevents])) [.unlock] ?_ rfl ⟨rfl, trivial⟩
      · simpa [program, sbHistogramGetPctIntermediate] using alternates
      · intro instr member
        simp only [List.mem_cons, List.mem_append, List.mem_map, List.not_mem_nil,
          or_false] at member
        rcases member with rfl | (((stored | added) | rfl) | ⟨i, _, rfl⟩) | rfl
        · rfl
        · exact drain_lock_free .storeTemp [0] (fun _ => rfl) instr (by simpa using stored)
        · exact drain_lock_free .addTemp _ (fun _ => rfl) instr added
        · rfl
        · rfl
        · rfl
  | getPctCumulative percentile =>
      have alternates := locked_body ((mergeIntermediateIntoCumulative : List (Instr size)) ++
        [.rankCumulative percentile]) [.unlock] ?_ rfl ⟨rfl, trivial⟩
      · simpa [program, sbHistogramGetPctCumulative] using alternates
      · intro instr member
        rcases List.mem_append.mp member with merged | last
        · exact merge_lock_free instr merged
        · obtain rfl := List.mem_singleton.mp last
          rfl
  | getPctCheckpoint percentile =>
      have alternates := locked_body ((mergeIntermediateIntoCumulative : List (Instr size)) ++
        [.rankCumulative percentile] ++ (List.finRange size).map .clear ++ [.clearNevents])
        [.unlock] ?_ rfl ⟨rfl, trivial⟩
      · simpa [program, sbHistogramGetPctCheckpoint] using alternates
      · intro instr member
        simp only [List.mem_append, List.mem_map, List.mem_singleton] at member
        rcases member with ((merged | rfl) | ⟨i, _, rfl⟩) | rfl
        · exact merge_lock_free instr merged
        · rfl
        · rfl
        · rfl
  | print =>
      exact locked_body mergeIntermediateIntoCumulative [.returnIfEmpty, .unlock]
        merge_lock_free rfl ⟨rfl, rfl, trivial⟩

/-- A call begins without the lock. -/
theorem program_unheld (operation : Operation) :
    holdsLock (program operation : List (Instr size)) = false := by
  cases operation <;> rfl

end Programs

/-! The lock along a run. -/
section Runs

/-- The lock is held exactly by a call between its lock and its unlock. -/
structure Held (s : State size) : Prop where
  locked : s.locked = holdsLock s.todo
  alternates : Alternates s.todo

theorem init_held (size : Nat) (memory : UInt64) : Held (sbHistogramInit size memory) :=
  ⟨rfl, trivial⟩

/-- A step that does not return early keeps the invariant. -/
theorem exec_held (instr : Instr size) (rest : List (Instr size)) (held : Held s)
    (listed : s.todo = instr :: rest) :
    Held { exec s instr with todo := rest, discarded := discards s } := by
  obtain ⟨locked, alternates⟩ := held
  rw [listed] at locked alternates
  cases instr
  case lock => exact ⟨alternates.1.symm, alternates.2⟩
  case unlock => exact ⟨alternates.1.symm, alternates.2⟩
  case returnIfEmpty => exact ⟨locked, alternates.2⟩
  all_goals exact ⟨locked, alternates⟩

theorem step_held (s : State size) (a : Action) (t : State size) (held : Held s)
    (prints : PrintsCounts s a) (taken : step s a = some t) : Held t := by
  cases a with
  | update slot raw =>
      obtain ⟨i, _, rfl⟩ := Option.map_eq_some_iff.mp taken
      exact ⟨held.locked, held.alternates⟩
  | call operation =>
      obtain ⟨idle, taken⟩ := Option.ite_none_right_eq_some.mp taken
      obtain rfl := Option.some.inj taken
      have unheld := held.locked
      rw [List.isEmpty_iff.mp idle] at unheld
      exact ⟨unheld.trans (program_unheld operation).symm, program_alternates operation⟩
  | proceed relock =>
      obtain ⟨instr, rest, listed, ⟨rfl, _⟩ | ⟨rfl, none, _⟩⟩ := proceed_cases taken
      · exact exec_held instr rest held listed
      · obtain ⟨i, some⟩ := prints rest listed
        exact absurd ((empty_iff s).mp none i) some

/-- A step of a call is refused only where its thread waits for its own lock. -/
theorem proceed_moves (s : State size) (relock : Relock) (busy : s.todo ≠ [])
    (free : ∀ rest, s.todo = .lock :: rest → relock = .waits → s.locked = false) :
    ∃ t, step s (.proceed relock) = some t := by
  have moves : ∃ t, proceed s relock = some t := by
    cases listed : s.todo with
    | nil => exact absurd listed busy
    | cons instr rest =>
        cases instr <;> simp only [proceed, listed]
        case lock =>
          cases relock with
          | waits => exact ⟨_, by rw [free rest listed rfl]; rfl⟩
          | deadlk => exact ⟨_, rfl⟩
        all_goals exact ⟨_, rfl⟩
  obtain ⟨t, taken⟩ := moves
  exact ⟨_, by rw [step, taken, Option.map_some]⟩

/-- A call whose steps are not refused returns after them, or earlier. -/
theorem proceeds_return (inv : State size → Prop) (relock : Relock)
    (moves : ∀ s, inv s → s.todo ≠ [] → ∃ t, step s (.proceed relock) = some t)
    (kept : ∀ s instr rest, inv s → s.todo = instr :: rest →
      inv { exec s instr with todo := rest, discarded := discards s })
    (s : State size) (start : inv s) : ∃ steps t, steps ≤ s.todo.length ∧
      run step s (List.replicate steps (.proceed relock)) = some t ∧ t.todo = [] := by
  generalize remaining : s.todo = todo
  induction todo generalizing s with
  | nil => exact ⟨0, s, Nat.le_refl 0, rfl, remaining⟩
  | cons instr rest ih =>
      obtain ⟨u, taken⟩ := moves s start (by simp [remaining])
      obtain ⟨head, tail, listed, ⟨rfl, _⟩ | ⟨_, _, rfl⟩⟩ := proceed_cases taken
      · obtain ⟨rfl, rfl⟩ := List.cons.inj (remaining.symm.trans listed)
        obtain ⟨steps, t, few, reached, done⟩ := ih _ (kept s _ _ start listed) rfl
        refine ⟨steps + 1, t, Nat.succ_le_succ few, ?_, done⟩
        rw [List.replicate_succ, run, taken, Option.bind_some]
        exact reached
      · refine ⟨1, { s with todo := [] }, Nat.succ_le_succ (Nat.zero_le _), ?_, rfl⟩
        rw [List.replicate_succ, run, taken, Option.bind_some]
        rfl

/-- No call takes a lock that is held. -/
theorem held_moves (s : State size) (held : Held s) (relock : Relock) (busy : s.todo ≠ []) :
    ∃ t, step s (.proceed relock) = some t := by
  refine proceed_moves s relock busy fun rest listed _ => ?_
  rw [held.locked, listed]
  rfl

theorem held_returns (s : State size) (held : Held s) (relock : Relock) :
    ∃ steps t, steps ≤ s.todo.length ∧
      run step s (List.replicate steps (.proceed relock)) = some t ∧ t.todo = [] :=
  proceeds_return Held relock (fun s held => held_moves s held relock)
    (fun _ instr rest held listed => exec_held instr rest held listed) s held

theorem held_released (s : State size) (held : Held s) : Released s := by
  refine ⟨fun idle => ?_, held_returns s held⟩
  rw [held.locked, idle]
  rfl

/-- An early return leaves the lock taken. -/
theorem step_prints_counts (s : State size) (a : Action) (t : State size) (held : Held s)
    (taken : step s a = some t) (released : Released t) : PrintsCounts s a := by
  cases a with
  | update | call => trivial
  | proceed relock =>
      intro rest listed
      by_contra none
      have counts : empty s = true :=
        (empty_iff s).mpr fun i => by_contra fun some => none ⟨i, some⟩
      have locked := held.locked
      have between := held.alternates
      rw [listed] at locked between
      obtain ⟨instr, after, split, ⟨_, counted⟩ | ⟨_, _, rfl⟩⟩ := proceed_cases taken
      · obtain ⟨rfl, _⟩ := List.cons.inj (listed.symm.trans split)
        rw [counted rfl] at counts
        cases counts
      · have free := released.free rfl
        rw [show s.locked = true from locked.trans between.1] at free
        cases free

theorem released_iff (size : Nat) (memory : UInt64) (schedule : List Action) :
    Always step Released (sbHistogramInit size memory) schedule ↔
      Guarded step PrintsCounts (sbHistogramInit size memory) schedule :=
  always_iff_guarded held_released step_held step_prints_counts _ schedule
    (init_held size memory)

end Runs

/-! Nothing recorded: `run_test` prints the histogram, which keeps the lock. -/
section Nothing

def quiet : Instr size → Bool
  | .lock | .loadNevents | .fetch _ _ | .addCumulative _ | .storeNevents => true
  | _ => false

structure Blank (s : State size) : Prop where
  slots : ∀ slot i, s.intermSlots slot i = 0
  counts : ∀ i, s.cumulativeArray i = 0
  fetched : s.t = 0

theorem exec_blank (instr : Instr size) (blank : Blank s) (works : quiet instr = true) :
    Blank (exec s instr) := by
  obtain ⟨slots, counts, fetched⟩ := blank
  cases instr
  case lock | loadNevents | storeNevents => exact ⟨slots, counts, fetched⟩
  case fetch slot i =>
    refine ⟨fun other j => ?_, counts, slots slot i⟩
    by_cases same : other = slot
    · subst same
      by_cases here : j = i
      · simp [exec, setSlot, here]
      · simp [exec, setSlot, here, slots]
    · simp [exec, setSlot, same, slots]
  case addCumulative i =>
    refine ⟨slots, fun j => ?_, fetched⟩
    by_cases here : j = i
    · simp [exec, here, counts, fetched]
    · simp [exec, here, counts]
  all_goals cases works

theorem blank_returns (front : List (Instr size)) (s : State size) (relock : Relock)
    (works : ∀ instr ∈ front, quiet instr = true) (blank : Blank s) (held : Held s)
    (listed : s.todo = front ++ [.returnIfEmpty, .unlock]) :
    ∃ t, run step s (List.replicate (front.length + 1) (.proceed relock)) = some t ∧
      t.todo = [] ∧ t.locked = true := by
  induction front generalizing s with
  | nil =>
      -- nothing was counted: the early return comes with the lock held
      have counts : empty s = true := (empty_iff s).mpr blank.counts
      have locked : s.locked = true := by
        rw [held.locked, listed]
        rfl
      obtain ⟨t, taken⟩ := held_moves s held relock (by simp [listed])
      obtain ⟨instr, rest, split, ⟨_, counted⟩ | ⟨_, _, rfl⟩⟩ := proceed_cases taken
      · obtain ⟨rfl, _⟩ := List.cons.inj (listed.symm.trans split)
        rw [counted rfl] at counts
        cases counts
      · refine ⟨{ s with todo := [] }, ?_, rfl, locked⟩
        rw [List.replicate_succ, run, taken, Option.bind_some]
        rfl
  | cons instr rest ih =>
      have head := works instr List.mem_cons_self
      obtain ⟨u, taken⟩ := held_moves s held relock (by simp [listed])
      obtain ⟨other, later, split, ⟨rfl, _⟩ | ⟨rfl, _⟩⟩ := proceed_cases taken
      · obtain ⟨rfl, rfl⟩ := List.cons.inj (listed.symm.trans split)
        have after := exec_blank instr blank head
        obtain ⟨t, reached, done⟩ := ih
          { exec s instr with
            todo := rest ++ [.returnIfEmpty, .unlock], discarded := discards s }
          (fun other member => works other (List.mem_cons_of_mem _ member))
          ⟨after.slots, after.counts, after.fetched⟩ (exec_held instr _ held listed) rfl
        refine ⟨t, ?_, done⟩
        rw [List.length_cons, List.replicate_succ, run, taken, Option.bind_some]
        exact reached
      · obtain ⟨rfl, _⟩ := List.cons.inj (listed.symm.trans split)
        cases head

theorem blank_print_keeps (size : Nat) (memory : UInt64) (relock : Relock) :
    ∃ steps t, run step (sbHistogramInit size memory)
      (.call .print :: List.replicate steps (.proceed relock)) = some t ∧
      t.todo = [] ∧ t.locked = true := by
  let printing : State size := { sbHistogramInit size memory with todo := sbHistogramPrint }
  obtain ⟨t, reached, done⟩ := blank_returns (.lock :: mergeIntermediateIntoCumulative) printing
    relock
    (List.forall_mem_cons.mpr ⟨rfl, merge_forall rfl (fun _ _ => rfl) (fun _ => rfl) rfl⟩)
    ⟨fun _ _ => rfl, fun _ => rfl, rfl⟩ ⟨rfl, program_alternates .print⟩ rfl
  refine ⟨(.lock :: (mergeIntermediateIntoCumulative : List (Instr size))).length + 1, t, ?_, done⟩
  change run step printing _ = _
  exact reached

/-- The latency histogram has 1024 buckets. Its print returns with the lock, whatever a relock
would give. -/
theorem print_keeps_lock :
    (∃ steps t, run step (sbHistogramInit 1024 0)
      (.call .print :: List.replicate steps (.proceed .waits)) = some t ∧
        t.todo = [] ∧ t.locked = true) ∧
    ∃ steps t, run step (sbHistogramInit 1024 0)
      (.call .print :: List.replicate steps (.proceed .deadlk)) = some t ∧
        t.todo = [] ∧ t.locked = true :=
  ⟨blank_print_keeps 1024 0 .waits, blank_print_keeps 1024 0 .deadlk⟩

/-- A call on a lock that its thread has kept waits for ever, or the lock is not taken
again and the call returns. -/
theorem kept_lock_outcomes (operation : Operation) (locked : s.locked = true)
    (begun : s.todo = program operation) : step s (.proceed .waits) = none ∧
      ∃ steps t, run step s (List.replicate steps (.proceed .deadlk)) = some t ∧
        t.todo = [] := by
  constructor
  · obtain ⟨rest, listed⟩ : ∃ rest, s.todo = .lock :: rest := by
      rw [begun]
      cases operation <;> exact ⟨_, rfl⟩
    simp only [step, proceed, listed, locked, ↓reduceIte, Option.map_none]
  · obtain ⟨steps, t, _, returned⟩ := proceeds_return (fun _ => True) .deadlk
      (fun s _ busy => proceed_moves s .deadlk busy fun _ _ waits => by cases waits)
      (fun _ _ _ _ _ => trivial) s trivial
    exact ⟨steps, t, returned⟩

end Nothing
end PteSysbench.HistogramLock
