import PteSysbench.ActionSystem
import Mathlib.Data.List.FinRange
import Mathlib.Data.Rat.Floor
import Mathlib.Logic.Function.Basic

/-!
Histograms of sb_histogram.c. A call is the list of the steps that others can come
between, loops unrolled; `sb_histogram_update` runs beside it at any point. A
percentile is the bucket it falls on, with floating arithmetic read as exact.
-/

namespace PteSysbench.SbHistogram

/-- SB_HISTOGRAM_NSLOTS. -/
abbrev nslots : Nat := 128

abbrev Slot := Fin nslots

/-- What a call does next; `t`, `nevents` and `array` are the locals of the source. -/
inductive Instr (size : Nat) where
  | lock
  | unlock
  -- `nevents = 0`
  | zeroNevents
  -- `nevents = h->cumulative_nevents`
  | loadNevents
  -- `t = ck_pr_fas_64(&h->interm_slots[slot][i], 0)`
  | fetch (slot : Slot) (i : Fin size)
  -- `temp_array[i] = t; nevents += temp_array[i]`
  | storeTemp (i : Fin size)
  -- `temp_array[i] += t; nevents += t`
  | addTemp (i : Fin size)
  -- `cumulative_array[i] += t; nevents += t`
  | addCumulative (i : Fin size)
  -- the percentile of `temp_array`
  | rankTemp (percentile : ℚ)
  -- `cumulative_array[i] += temp_array[i]`
  | pour (i : Fin size)
  -- `h->cumulative_nevents += nevents`
  | addNevents
  -- `h->cumulative_nevents = nevents`
  | storeNevents
  -- `get_pct_cumulative`
  | rankCumulative (percentile : ℚ)
  -- one element of the `memset` of `cumulative_array`
  | clear (i : Fin size)
  -- `h->cumulative_nevents = 0`
  | clearNevents
  -- `if (maxcnt == 0) return`
  | returnIfEmpty

/-- The structure, the locals of the call in progress and what is left of it.
`updates` and `discarded` are history: the updates that fell in a bucket, and what
checkpoints have cleared from it. -/
structure State (size : Nat) where
  intermSlots : Slot → Fin size → UInt64
  cumulativeArray : Fin size → UInt64
  tempArray : Fin size → UInt64
  cumulativeNevents : UInt64
  locked : Bool
  t : UInt64
  nevents : UInt64
  result : Nat
  todo : List (Instr size)
  updates : Fin size → Nat
  discarded : Fin size → Nat

inductive Operation where
  | getPctIntermediate (percentile : ℚ)
  | getPctCumulative (percentile : ℚ)
  | getPctCheckpoint (percentile : ℚ)
  | print

/-- What `pthread_rwlock_wrlock` does in a thread that has the lock: the thread waits for
itself, or the answer is EDEADLK, which none of the callers looks at. -/
inductive Relock where
  | waits
  | deadlk

inductive Action where
  | update (slot : Slot) (raw : Int)
  | call (operation : Operation)
  | proceed (relock : Relock)

section Programs
variable {size : Nat}

/-- The inner loop of a merge: what is fetched from a slot goes through `keep`. -/
def drain (keep : Fin size → Instr size) (slot : Slot) : List (Instr size) :=
  (List.finRange size).flatMap fun i => [.fetch slot i, keep i]

/-- `merge_intermediate_into_cumulative`. -/
def mergeIntermediateIntoCumulative : List (Instr size) :=
  .loadNevents :: (List.finRange nslots).flatMap (drain .addCumulative) ++ [.storeNevents]

def sbHistogramGetPctIntermediate (percentile : ℚ) : List (Instr size) :=
  .lock :: .zeroNevents :: (drain .storeTemp 0 ++
    (((List.finRange nslots).drop 1).flatMap (drain .addTemp) ++
      .rankTemp percentile :: ((List.finRange size).map .pour ++ [.addNevents, .unlock])))

def sbHistogramGetPctCumulative (percentile : ℚ) : List (Instr size) :=
  .lock :: (mergeIntermediateIntoCumulative ++ [.rankCumulative percentile, .unlock])

def sbHistogramGetPctCheckpoint (percentile : ℚ) : List (Instr size) :=
  .lock :: (mergeIntermediateIntoCumulative ++ .rankCumulative percentile ::
    ((List.finRange size).map .clear ++ [.clearNevents, .unlock]))

/-- The early return leaves the lock as it is. -/
def sbHistogramPrint : List (Instr size) :=
  .lock :: (mergeIntermediateIntoCumulative ++ [.returnIfEmpty, .unlock])

def program : Operation → List (Instr size)
  | .getPctIntermediate percentile => sbHistogramGetPctIntermediate percentile
  | .getPctCumulative percentile => sbHistogramGetPctCumulative percentile
  | .getPctCheckpoint percentile => sbHistogramGetPctCheckpoint percentile
  | .print => sbHistogramPrint

theorem merge_append (rest : List (Instr size)) :
    mergeIntermediateIntoCumulative ++ rest = .loadNevents ::
      ((List.finRange nslots).flatMap (drain .addCumulative) ++ .storeNevents :: rest) := by
  simp [mergeIntermediateIntoCumulative]

/-- A property of the instructions of a merge. -/
theorem drain_forall {property : Instr size → Prop} (keep : Fin size → Instr size)
    (slots : List Slot) (fetched : ∀ slot i, property (.fetch slot i))
    (kept : ∀ i, property (keep i)) :
    ∀ instr ∈ slots.flatMap (drain keep), property instr := by
  intro instr member
  obtain ⟨slot, _, drained⟩ := List.mem_flatMap.mp member
  obtain ⟨i, _, pair⟩ := List.mem_flatMap.mp drained
  rcases List.mem_pair.mp pair with rfl | rfl
  · exact fetched slot i
  · exact kept i

/-- A property of what is left of a call is kept by a drain before it if it is kept by
each fetch with its addition. -/
theorem drain_keeps (property : List (Instr size) → Prop) (keep : Fin size → Instr size)
    (slots : List Slot) (rest : List (Instr size))
    (pair : ∀ slot i later, property later → property (.fetch slot i :: keep i :: later))
    (base : property rest) : property (slots.flatMap (drain keep) ++ rest) := by
  have bucket (slot : Slot) (buckets : List (Fin size)) (later : List (Instr size))
      (before : property later) :
      property (buckets.flatMap (fun i => [.fetch slot i, keep i]) ++ later) := by
    induction buckets with
    | nil => exact before
    | cons head tail ih => exact pair slot head _ ih
  induction slots with
  | nil => exact base
  | cons head tail ih =>
      rw [List.flatMap_cons, List.append_assoc]
      exact bucket head _ _ ih

theorem merge_forall {property : Instr size → Prop} (loaded : property .loadNevents)
    (fetched : ∀ slot i, property (.fetch slot i)) (added : ∀ i, property (.addCumulative i))
    (stored : property .storeNevents) :
    ∀ instr ∈ mergeIntermediateIntoCumulative, property instr := by
  intro instr member
  rcases List.mem_append.mp member with front | last
  · rcases List.mem_cons.mp front with rfl | drained
    · exact loaded
    · exact drain_forall _ _ fetched added instr drained
  · obtain rfl := List.mem_singleton.mp last
    exact stored

end Programs

/-- `nmax = floor(nevents * percentile / 100 + 0.5)`. -/
def rank (nevents : UInt64) (percentile : ℚ) : UInt64 :=
  UInt64.ofInt ⌊(nevents.toNat : ℚ) * percentile / 100 + 1 / 2⌋

/-- The first bucket at which the running count `ncur` reaches `nmax`. -/
def bucketAtRank (nmax : UInt64) : UInt64 → List UInt64 → Nat
  | _, [] => 0
  | ncur, count :: rest =>
      if nmax ≤ ncur + count then 0 else bucketAtRank nmax (ncur + count) rest + 1

/-- The loop that finds `maxcnt`. -/
def maxCount : UInt64 → List UInt64 → UInt64
  | maxcnt, [] => maxcnt
  | maxcnt, count :: rest => maxCount (if maxcnt < count then count else maxcnt) rest

section Steps
variable {size : Nat}

/-- `raw` is the rounded index, which `sb_histogram_update` clamps to the array;
an empty array has no bucket to fall back on. -/
def bucketOf (size : Nat) (raw : Int) : Option (Fin size) :=
  if sized : 0 < size then
    if raw < 0 then some ⟨0, sized⟩
    else if inside : raw.toNat < size then some ⟨raw.toNat, inside⟩
    else some ⟨size - 1, Nat.sub_lt sized Nat.one_pos⟩
  else none

def setSlot (slots : Slot → Fin size → UInt64) (slot : Slot) (i : Fin size) (count : UInt64) :
    Slot → Fin size → UInt64 :=
  Function.update slots slot (Function.update (slots slot) i count)

def bump (history : Fin size → Nat) (i : Fin size) (amount : Nat) : Fin size → Nat :=
  Function.update history i (history i + amount)

/-- `sb_histogram_update`. -/
def sbHistogramUpdate (s : State size) (slot : Slot) (i : Fin size) : State size :=
  { s with intermSlots := setSlot s.intermSlots slot i (s.intermSlots slot i + 1) }

/-- The effect of a step on the structure and the locals. -/
def exec (s : State size) : Instr size → State size
  | .lock => { s with locked := true }
  | .unlock => { s with locked := false }
  | .zeroNevents => { s with nevents := 0 }
  | .loadNevents => { s with nevents := s.cumulativeNevents }
  | .fetch slot i =>
      { s with t := s.intermSlots slot i, intermSlots := setSlot s.intermSlots slot i 0 }
  | .storeTemp i =>
      { s with tempArray := Function.update s.tempArray i s.t, nevents := s.nevents + s.t }
  | .addTemp i =>
      { s with
        tempArray := Function.update s.tempArray i (s.tempArray i + s.t)
        nevents := s.nevents + s.t }
  | .addCumulative i =>
      { s with
        cumulativeArray := Function.update s.cumulativeArray i (s.cumulativeArray i + s.t)
        nevents := s.nevents + s.t }
  | .rankTemp percentile =>
      { s with
        result := bucketAtRank (rank s.nevents percentile) 0
          ((List.finRange size).map s.tempArray) }
  | .pour i =>
      { s with
        cumulativeArray :=
          Function.update s.cumulativeArray i (s.cumulativeArray i + s.tempArray i) }
  | .addNevents => { s with cumulativeNevents := s.cumulativeNevents + s.nevents }
  | .storeNevents => { s with cumulativeNevents := s.nevents }
  | .rankCumulative percentile =>
      { s with
        result := bucketAtRank (rank s.cumulativeNevents percentile) 0
          ((List.finRange size).map s.cumulativeArray) }
  | .clear i => { s with cumulativeArray := Function.update s.cumulativeArray i 0 }
  | .clearNevents => { s with cumulativeNevents := 0 }
  | .returnIfEmpty => s

/-- No bucket has a count. -/
def empty (s : State size) : Bool :=
  maxCount 0 ((List.finRange size).map s.cumulativeArray) = 0

/-- The next step of the call in progress. -/
def proceed (s : State size) (relock : Relock) : Option (State size) :=
  match s.todo, relock with
  | [], _ => none
  | .lock :: rest, .waits => if s.locked then none else some { exec s .lock with todo := rest }
  | .returnIfEmpty :: rest, _ => some { s with todo := if empty s then [] else rest }
  | instr :: rest, _ => some { exec s instr with todo := rest }

/-- What has been discarded once the next step of the call is taken: the `memset` of a
checkpoint drops the count it finds. -/
def discards (s : State size) : Fin size → Nat :=
  match s.todo with
  | .clear i :: _ => bump s.discarded i (s.cumulativeArray i).toNat
  | _ => s.discarded

def step (s : State size) : Action → Option (State size)
  | .update slot raw => (bucketOf size raw).map fun i =>
      { sbHistogramUpdate s slot i with updates := bump s.updates i 1 }
  | .call operation =>
      if s.todo.isEmpty then some { s with todo := program operation } else none
  | .proceed relock => (proceed s relock).map fun t => { t with discarded := discards s }

/-- `sb_histogram_init`: the arrays come from `calloc`, `cumulative_nevents` keeps
what the memory of the structure held. -/
def sbHistogramInit (size : Nat) (memory : UInt64) : State size :=
  { intermSlots := fun _ _ => 0, cumulativeArray := fun _ => 0, tempArray := fun _ => 0
    cumulativeNevents := memory, locked := false, t := 0, nevents := 0, result := 0, todo := []
    updates := fun _ => 0, discarded := fun _ => 0 }

/-- `sb_histogram_new`: the structure comes from `malloc`, with what that memory holds. -/
def sbHistogramNew (size : Nat) (memory : UInt64) : State size := sbHistogramInit size memory

/-- What one step of a call does: it takes the next instruction off, or it returns early. -/
theorem proceed_cases {s t : State size} {relock : Relock}
    (taken : step s (.proceed relock) = some t) :
    ∃ instr rest, s.todo = instr :: rest ∧
      (t = { exec s instr with todo := rest, discarded := discards s } ∧
          (instr = .returnIfEmpty → empty s = false) ∨
        instr = .returnIfEmpty ∧ empty s = true ∧ t = { s with todo := [] }) := by
  obtain ⟨u, moved, rfl⟩ := Option.map_eq_some_iff.mp taken
  cases listed : s.todo with
  | nil => simp [proceed, listed] at moved
  | cons instr rest =>
      refine ⟨instr, rest, rfl, ?_⟩
      cases instr
      case lock =>
        have next : u = { exec s .lock with todo := rest } := by
          cases relock with
          | waits =>
              simp only [proceed, listed] at moved
              exact (Option.some.inj (Option.ite_none_left_eq_some.mp moved).2).symm
          | deadlk =>
              simp only [proceed, listed] at moved
              exact (Option.some.inj moved).symm
        exact Or.inl ⟨by rw [next], nofun⟩
      case returnIfEmpty =>
        have kept : discards s = s.discarded := by simp only [discards, listed]
        simp only [proceed, listed] at moved
        cases counted : empty s with
        | true =>
            rw [counted] at moved
            refine Or.inr ⟨rfl, rfl, ?_⟩
            rw [kept, ← Option.some.inj moved]
            rfl
        | false =>
            rw [counted] at moved
            refine Or.inl ⟨?_, fun _ => rfl⟩
            rw [← Option.some.inj moved]
            rfl
      all_goals
        simp only [proceed, listed] at moved
        exact Or.inl ⟨by rw [Option.some.inj moved.symm], nofun⟩

theorem max_count_zero (maxcnt : UInt64) (counts : List UInt64) :
    maxCount maxcnt counts = 0 ↔ maxcnt = 0 ∧ ∀ count ∈ counts, count = 0 := by
  induction counts generalizing maxcnt with
  | nil => simp [maxCount]
  | cons count rest ih =>
      rw [maxCount, ih, List.forall_mem_cons]
      by_cases more : maxcnt < count
      · have positive : count ≠ 0 := by
          rintro rfl
          exact UInt64.not_lt_zero more
        simp [more, positive]
      · rw [if_neg more]
        constructor
        · rintro ⟨rfl, all⟩
          have none : count = 0 := by
            by_contra some
            exact more (UInt64.pos_iff_ne_zero.mpr some)
          exact ⟨rfl, none, all⟩
        · exact fun ⟨zero, _, all⟩ => ⟨zero, all⟩

theorem empty_iff (s : State size) : empty s = true ↔ ∀ i, s.cumulativeArray i = 0 := by
  simp [empty, max_count_zero]

end Steps
end PteSysbench.SbHistogram
