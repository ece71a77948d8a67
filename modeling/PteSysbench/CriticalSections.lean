import PteSysbench.ActionSystem
import Mathlib.Logic.Function.Basic

/-!
Threads that run through critical sections, one after the other and none inside another,
each under one lock. A thread may be interrupted for good: it goes on with other code and
keeps the lock of the section it was in. Where no thread has been interrupted inside a
section, every thread can come to the end of its code.
-/

namespace PteSysbench.CriticalSections

open ActionSystem

/-- A section may initialize another lock, which frees it whoever holds it. -/
structure Section (Lock : Type*) where
  lock : Lock
  clears : Option Lock

inductive Place (Lock : Type*) where
  | outside (code : List (Section Lock))
  | inside (current : Section Lock) (rest : List (Section Lock))

section Places
variable {Lock : Type*}

def Place.lock : Place Lock → Option Lock
  | .outside _ => none
  | .inside current _ => some current.lock

/-- The sections to be entered yet. -/
def Place.ahead : Place Lock → List (Section Lock)
  | .outside code => code
  | .inside _ rest => rest

def Place.sections : Place Lock → List (Section Lock)
  | .outside code => code
  | .inside current rest => current :: rest
end Places

/-- `abandoned` has the lock a thread held when it was interrupted. -/
structure State (Thread Lock : Type*) where
  place : Thread → Place Lock
  abandoned : Thread → Option Lock
  owner : Lock → Option Thread

inductive Move (Thread : Type*) where
  | enter (t : Thread)
  | leave (t : Thread)

variable {Thread Lock : Type*} [DecidableEq Thread]

def goto (s : State Thread Lock) (t : Thread) (place : Place Lock) : State Thread Lock :=
  { s with place := Function.update s.place t place }

@[simp] theorem goto_place (s : State Thread Lock) (t : Thread) (place : Place Lock) :
    (goto s t place).place t = place := by
  simp [goto]

theorem goto_other (s : State Thread Lock) (t other : Thread) (place : Place Lock)
    (different : other ≠ t) : (goto s t place).place other = s.place other := by
  simp [goto, different]

/-- The thread goes on with other code. -/
def interrupt (s : State Thread Lock) (t : Thread) (code : List (Section Lock)) :
    State Thread Lock :=
  { goto s t (.outside code) with abandoned := Function.update s.abandoned t (s.place t).lock }

def Holds (s : State Thread Lock) (t : Thread) (lock : Lock) : Prop :=
  (s.place t).lock = some lock ∨ s.abandoned t = some lock

/-- A lock is owned by a thread that is in its section or was interrupted there. -/
def OwnersHold (s : State Thread Lock) : Prop :=
  ∀ lock t, s.owner lock = some t → Holds s t lock

/-- Of the locks that no section clears, a thread owns what it holds, and enters no section
of a lock it has abandoned. -/
structure HoldersOwn (kept : Lock → Prop) (s : State Thread Lock) : Prop where
  own : ∀ t lock, kept lock → Holds s t lock → s.owner lock = some t
  apart : ∀ t lock, kept lock → s.abandoned t = some lock → (s.place t).lock ≠ some lock
  harmless : ∀ t, ∀ next ∈ (s.place t).sections, ∀ lock, next.clears = some lock → ¬ kept lock

/-- The thread has a section of the lock ahead that it abandoned. -/
def Blocked (s : State Thread Lock) (t : Thread) (lock : Lock) : Prop :=
  s.abandoned t = some lock ∧ ∃ next ∈ (s.place t).ahead, next.lock = lock

/-! Other code for a thread. -/
section Loading
variable {s : State Thread Lock} {kept : Lock → Prop}

/-- Elsewhere a thread holds what it held. -/
theorem holds_goto (t other : Thread) (place : Place Lock) (lock : Lock) (different : other ≠ t) :
    Holds (goto s t place) other lock ↔ Holds s other lock := by
  unfold Holds
  rw [goto_other s t other place different]
  exact Iff.rfl

theorem interrupt_owners (t : Thread) (code : List (Section Lock)) (owners : OwnersHold s)
    (first : s.abandoned t = none) : OwnersHold (interrupt s t code) := by
  intro lock other owned
  have held := owners lock other owned
  by_cases same : other = t
  · subst same
    refine Or.inr ?_
    simpa [interrupt] using held.resolve_right (by simp [first])
  · rcases held with here | abandoned
    · exact Or.inl (by rwa [interrupt, goto_other s t other _ same])
    · exact Or.inr (by simpa [interrupt, same] using abandoned)

theorem harmless_goto (t : Thread) (place : Place Lock) (holders : HoldersOwn kept s)
    (own : ∀ next ∈ place.sections, ∀ lock, next.clears = some lock → ¬ kept lock) :
    ∀ other, ∀ next ∈ ((goto s t place).place other).sections, ∀ lock,
      next.clears = some lock → ¬ kept lock := by
  intro other
  by_cases same : other = t
  · subst same
    rwa [goto_place]
  · rw [goto_other s t other place same]
    exact holders.harmless other

theorem interrupt_holders (t : Thread) (code : List (Section Lock)) (holders : HoldersOwn kept s)
    (first : s.abandoned t = none)
    (harmless : ∀ next ∈ code, ∀ lock, next.clears = some lock → ¬ kept lock) :
    HoldersOwn kept (interrupt s t code) := by
  refine ⟨fun other lock keep holds => ?_, fun other lock keep abandoned => ?_,
    harmless_goto t (.outside code) holders harmless⟩
  · by_cases same : other = t
    · subst same
      have held : (s.place other).lock = some lock := by
        simpa [Holds, interrupt, Place.lock] using holds
      exact holders.own other lock keep (Or.inl held)
    · have held : Holds s other lock := by
        simpa [Holds, interrupt, goto, same] using holds
      exact holders.own other lock keep held
  · by_cases same : other = t
    · subst same
      simp [interrupt, Place.lock]
    · rw [interrupt, goto_other s t other _ same]
      exact holders.apart other lock keep (by simpa [interrupt, same] using abandoned)

/-- A thread at the end of its code takes up more. -/
theorem load_owners (t : Thread) (code : List (Section Lock)) (owners : OwnersHold s)
    (done : s.place t = .outside []) : OwnersHold (goto s t (.outside code)) := by
  intro lock other owned
  have held := owners lock other owned
  by_cases same : other = t
  · subst same
    exact Or.inr (held.resolve_left (by simp [done, Place.lock]))
  · exact (holds_goto t other _ lock same).mpr held

theorem load_holders (t : Thread) (code : List (Section Lock)) (holders : HoldersOwn kept s)
    (harmless : ∀ next ∈ code, ∀ lock, next.clears = some lock → ¬ kept lock) :
    HoldersOwn kept (goto s t (.outside code)) := by
  refine ⟨fun other lock keep holds => ?_, fun other lock keep abandoned => ?_,
    harmless_goto t (.outside code) holders harmless⟩
  · by_cases same : other = t
    · subst same
      have abandoned : s.abandoned other = some lock :=
        holds.resolve_left (by simp [Place.lock])
      exact holders.own other lock keep (Or.inr abandoned)
    · exact holders.own other lock keep ((holds_goto t other _ lock same).mp holds)
  · by_cases same : other = t
    · subst same
      simp [Place.lock]
    · rw [goto_other s t other _ same]
      exact holders.apart other lock keep abandoned
end Loading

/-! Entering and leaving. -/
section Moves
variable [DecidableEq Lock] {s u : State Thread Lock} {kept : Lock → Prop}

def freed (owner : Lock → Option Thread) (done : Section Lock) : Lock → Option Thread :=
  fun lock => if lock = done.lock ∨ done.clears = some lock then none else owner lock

def step (s : State Thread Lock) : Move Thread → Option (State Thread Lock)
  | .enter t =>
      match s.place t with
      | .outside (next :: rest) =>
          if s.owner next.lock = none then
            some { goto s t (.inside next rest) with
              owner := Function.update s.owner next.lock (some t) }
          else none
      | _ => none
  | .leave t =>
      match s.place t with
      | .inside current rest =>
          some { goto s t (.outside rest) with owner := freed s.owner current }
      | _ => none

theorem enter_cases (t : Thread) (taken : step s (.enter t) = some u) :
    ∃ next rest, s.place t = .outside (next :: rest) ∧ s.owner next.lock = none ∧
      u = { goto s t (.inside next rest) with
        owner := Function.update s.owner next.lock (some t) } := by
  simp only [step] at taken
  split at taken
  · rename_i next rest here
    obtain ⟨free, taken⟩ := Option.ite_none_right_eq_some.mp taken
    exact ⟨next, rest, here, free, (Option.some.inj taken).symm⟩
  · cases taken

theorem leave_cases (t : Thread) (taken : step s (.leave t) = some u) :
    ∃ current rest, s.place t = .inside current rest ∧
      u = { goto s t (.outside rest) with owner := freed s.owner current } := by
  simp only [step] at taken
  split at taken
  · rename_i current rest here
    exact ⟨current, rest, here, (Option.some.inj taken).symm⟩
  · cases taken

theorem step_abandoned (m : Move Thread) (taken : step s m = some u) :
    u.abandoned = s.abandoned := by
  cases m with
  | enter t =>
      obtain ⟨next, rest, _, _, rfl⟩ := enter_cases t taken
      rfl
  | leave t =>
      obtain ⟨current, rest, _, rfl⟩ := leave_cases t taken
      rfl

theorem step_sections (m : Move Thread) (taken : step s m = some u) (t : Thread) :
    (u.place t).sections ⊆ (s.place t).sections := by
  cases m with
  | enter other =>
      obtain ⟨next, rest, here, _, rfl⟩ := enter_cases other taken
      by_cases same : t = other
      · subst same
        simp [here, Place.sections]
      · simp only [goto_other s other t _ same]
        exact List.Subset.refl _
  | leave other =>
      obtain ⟨current, rest, here, rfl⟩ := leave_cases other taken
      by_cases same : t = other
      · subst same
        simp [here, Place.sections]
      · simp only [goto_other s other t _ same]
        exact List.Subset.refl _

theorem step_owners (m : Move Thread) (owners : OwnersHold s) (taken : step s m = some u) :
    OwnersHold u := by
  intro lock other owned
  cases m with
  | enter t =>
      obtain ⟨next, rest, here, free, rfl⟩ := enter_cases t taken
      by_cases entered : lock = next.lock
      · subst entered
        have same : t = other := by simpa using owned
        subst same
        exact Or.inl (by simp [Place.lock])
      · have before : s.owner lock = some other := by simpa [entered] using owned
        have held := owners lock other before
        by_cases same : other = t
        · subst same
          refine Or.inr (held.resolve_left ?_)
          simp [here, Place.lock]
        · exact (holds_goto t other _ lock same).mpr held
  | leave t =>
      obtain ⟨current, rest, here, rfl⟩ := leave_cases t taken
      obtain ⟨remains, before⟩ := Option.ite_none_left_eq_some.mp owned
      have held := owners lock other before
      by_cases same : other = t
      · subst same
        refine Or.inr (held.resolve_left ?_)
        rw [here]
        exact fun left => remains (Or.inl (Option.some.inj left).symm)
      · exact (holds_goto t other _ lock same).mpr held

theorem enter_holders (t : Thread) (holders : HoldersOwn kept s)
    (taken : step s (.enter t) = some u) : HoldersOwn kept u := by
  obtain ⟨next, rest, here, free, rfl⟩ := enter_cases t taken
  have nobody : ∀ other, kept next.lock → ¬ Holds s other next.lock := by
    intro other keep held
    cases free.symm.trans (holders.own other next.lock keep held)
  refine ⟨fun other lock keep holds => ?_, fun other lock keep abandoned => ?_,
    harmless_goto t (.inside next rest) holders ?_⟩
  · by_cases entered : lock = next.lock
    · subst entered
      by_cases same : other = t
      · simp [same]
      · exact absurd ((holds_goto t other _ next.lock same).mp holds) (nobody other keep)
    · have held : Holds s other lock := by
        by_cases same : other = t
        · subst same
          refine Or.inr (holds.resolve_left ?_)
          simpa [Place.lock] using Ne.symm entered
        · exact (holds_goto t other _ lock same).mp holds
      simpa [entered] using holders.own other lock keep held
  · by_cases same : other = t
    · subst same
      simp only [goto_place, Place.lock, Option.some.injEq, ne_eq]
      rintro rfl
      exact nobody other keep (Or.inr abandoned)
    · simp only [goto_other s t other _ same]
      exact holders.apart other lock keep abandoned
  · have sections := holders.harmless t
    rwa [here] at sections

theorem leave_holders (t : Thread) (holders : HoldersOwn kept s)
    (taken : step s (.leave t) = some u) : HoldersOwn kept u := by
  obtain ⟨current, rest, here, rfl⟩ := leave_cases t taken
  have sections := holders.harmless t
  rw [here] at sections
  have inside : (s.place t).lock = some current.lock := by rw [here]; rfl
  refine ⟨fun other lock keep holds => ?_, fun other lock keep abandoned => ?_,
    harmless_goto t (.outside rest) holders fun next later =>
      sections next (List.mem_cons_of_mem _ later)⟩
  · have held : Holds s other lock := by
      by_cases same : other = t
      · subst same
        exact Or.inr (holds.resolve_left (by simp [Place.lock]))
      · exact (holds_goto t other _ lock same).mp holds
    have owned := holders.own other lock keep held
    refine (if_neg ?_).trans owned
    rintro (released | cleared)
    · -- the lock released is the one the leaving thread owns
      subst released
      have mine := holders.own t current.lock keep (Or.inl inside)
      obtain rfl := Option.some.inj (owned.symm.trans mine)
      have abandoned : s.abandoned other = some current.lock :=
        holds.resolve_left (by simp [Place.lock])
      exact holders.apart other current.lock keep abandoned inside
    · exact sections current List.mem_cons_self lock cleared keep
  · by_cases same : other = t
    · subst same
      simp [Place.lock]
    · simp only [goto_other s t other _ same]
      exact holders.apart other lock keep abandoned

theorem step_holders (m : Move Thread) (holders : HoldersOwn kept s)
    (taken : step s m = some u) : HoldersOwn kept u := by
  cases m with
  | enter t => exact enter_holders t holders taken
  | leave t => exact leave_holders t holders taken

/-- A thread does not get past a lock that it has abandoned. -/
theorem step_blocked (m : Move Thread) (t : Thread) (lock : Lock) (holders : HoldersOwn kept s)
    (keep : kept lock) (blocked : Blocked s t lock) (taken : step s m = some u) :
    Blocked u t lock := by
  obtain ⟨abandoned, next, ahead, this⟩ := blocked
  refine ⟨(congrFun (step_abandoned m taken) t).trans abandoned, next, ?_, this⟩
  cases m with
  | enter other =>
      obtain ⟨first, rest, here, free, rfl⟩ := enter_cases other taken
      by_cases same : t = other
      · subst same
        rw [here] at ahead
        rcases List.mem_cons.mp ahead with rfl | later
        · have mine := holders.own t lock keep (Or.inr abandoned)
          rw [this] at free
          cases free.symm.trans mine
        · simpa [Place.ahead] using later
      · simpa only [goto_other s other t _ same] using ahead
  | leave other =>
      obtain ⟨current, rest, here, rfl⟩ := leave_cases other taken
      by_cases same : t = other
      · subst same
        rw [here] at ahead
        simpa [Place.ahead] using ahead
      · simpa only [goto_other s other t _ same] using ahead
end Moves

/-! Threads that come to the end of their code. -/
section Finishing
variable [DecidableEq Lock]

/-- Every listed thread can leave the section it is in. -/
theorem leave_all (threads : List Thread) (s : State Thread Lock) (owners : OwnersHold s) :
    ∃ moves u, run step s moves = some u ∧ OwnersHold u ∧ u.abandoned = s.abandoned ∧
      (∀ t, (s.place t).lock = none → (u.place t).lock = none) ∧
      ∀ t ∈ threads, (u.place t).lock = none := by
  induction threads generalizing s with
  | nil => exact ⟨[], s, rfl, owners, rfl, fun _ out => out, fun _ no => absurd no List.not_mem_nil⟩
  | cons first others ih =>
      cases here : s.place first with
      | outside code =>
          obtain ⟨moves, u, reached, owners, same, kept, out⟩ := ih s owners
          refine ⟨moves, u, reached, owners, same, kept, fun t member => ?_⟩
          rcases List.mem_cons.mp member with rfl | later
          · exact kept t (by rw [here]; rfl)
          · exact out t later
      | inside current rest =>
          -- its own section ends first, then those of the others
          have taken : step s (.leave first) =
              some { goto s first (.outside rest) with owner := freed s.owner current } := by
            simp only [step, here]
          obtain ⟨moves, u, reached, owners_, same, kept, out⟩ :=
            ih _ (step_owners (.leave first) owners taken)
          have left : (u.place first).lock = none := kept first (by simp [Place.lock])
          refine ⟨.leave first :: moves, u, ?_, owners_, same, fun t before => ?_,
            fun t member => ?_⟩
          · rw [run, taken]
            exact reached
          · by_cases this : t = first
            · rwa [this]
            · exact kept t (by simpa only [goto_other s first t _ this] using before)
          · rcases List.mem_cons.mp member with rfl | later
            · exact left
            · exact out t later

/-- While no lock is owned a thread can go through all its sections. -/
theorem runs_out (code : List (Section Lock)) (t : Thread) (s : State Thread Lock)
    (here : s.place t = .outside code) (free : ∀ lock, s.owner lock = none) :
    ∃ moves u, run step s moves = some u ∧ u.place t = .outside [] := by
  induction code generalizing s with
  | nil => exact ⟨[], s, rfl, here⟩
  | cons next rest ih =>
      have entered : step s (.enter t) = some { goto s t (.inside next rest) with
          owner := Function.update s.owner next.lock (some t) } := by
        simp only [step, here, free, if_true]
      have left : step { goto s t (.inside next rest) with
            owner := Function.update s.owner next.lock (some t) } (.leave t) =
          some { goto (goto s t (.inside next rest)) t (.outside rest) with
            owner := freed (Function.update s.owner next.lock (some t)) next } := by
        simp [step, goto]
      obtain ⟨moves, u, reached, done⟩ := ih { goto (goto s t (.inside next rest)) t
          (.outside rest) with owner := freed (Function.update s.owner next.lock (some t)) next }
        (goto_place _ t _) (by
          intro lock
          by_cases this : lock = next.lock <;> simp [freed, this, free])
      refine ⟨.enter t :: .leave t :: moves, u, ?_, done⟩
      rw [run, entered, Option.bind_some, run, left]
      exact reached

/-- No lock has been abandoned: a thread can come to the end of its code, once the others
have left their sections. -/
theorem finishes (threads : List Thread) (all : ∀ t, t ∈ threads) (t : Thread)
    (s : State Thread Lock) (owners : OwnersHold s) (kept : ∀ t, s.abandoned t = none) :
    ∃ moves u, run step s moves = some u ∧ u.place t = .outside [] := by
  obtain ⟨first, u, left, owners_, same, _, out⟩ := leave_all threads s owners
  have free : ∀ lock, u.owner lock = none := by
    intro lock
    cases owned : u.owner lock with
    | none => rfl
    | some other =>
        rcases owners_ lock other owned with inside | abandoned
        · cases (out other (all other)).symm.trans inside
        · rw [same] at abandoned
          cases (kept other).symm.trans abandoned
  cases here : u.place t with
  | inside current rest =>
      have outside := out t (all t)
      rw [here] at outside
      cases outside
  | outside code =>
      obtain ⟨second, v, ran, done⟩ := runs_out code t u here free
      refine ⟨first ++ second, v, ?_, done⟩
      rw [run_append, left, Option.bind_some, ran]
end Finishing
end PteSysbench.CriticalSections
