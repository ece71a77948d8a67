import PteSysbench.ActionSystem
import Mathlib.Algebra.BigOperators.Group.Finset.Basic
import Mathlib.Data.Fintype.Basic
import Mathlib.Data.List.FinRange
import Mathlib.Data.UInt
import Mathlib.Logic.Function.Basic

/-!
The statistics counters of sb_counter.c, a slot for every worker and one more that all
background threads share. The load and the store of `sb_counter_add`, and every read of
`sb_counters_merge`, are steps of their own.
-/

namespace PteSysbench.SbCounter

open ActionSystem

inductive CounterType where
  | other
  | read
  | write
  | event
  | error
  | reconnect
  | bytesRead
  | bytesWritten
  deriving DecidableEq

/-- The values below SB_CNT_MAX. -/
def CounterType.all : List CounterType :=
  [.other, .read, .write, .event, .error, .reconnect, .bytesRead, .bytesWritten]

/-- `sb_counters_agg_intermediate` and `sb_counters_agg_cumulative`. -/
inductive Stream where
  | intermediate
  | cumulative
  deriving DecidableEq

/-- `sb_counter_add` behind its load. -/
structure Pending where
  type : CounterType
  val : UInt64
  loaded : UInt64

/-- The slots in the order `sb_counters_merge` reads them. -/
def mergeOrder (n : Nat) : List (Fin n × CounterType) :=
  CounterType.all.flatMap fun t => (List.finRange n).map fun i => (i, t)

/-- A call that merges. -/
structure Call (n : Nat) where
  val : CounterType → UInt64
  todo : List (Fin n × CounterType)

/-- History of a call: the slots as it found them, and how many increments they had then. -/
structure Reads (n : Nat) where
  slots : Fin n × CounterType → UInt64
  seen : Fin n × CounterType → Nat

/-- What a call returned, with its history. -/
structure Report (n : Nat) where
  val : CounterType → UInt64
  slots : Fin n × CounterType → UInt64
  seen : Fin n × CounterType → Nat

/-- History, which `step` writes: `asked`, what each thread has called `sb_counter_add`
with, `added`, the amounts of the calls that every worker has finished, `reads` and
`reports`. -/
structure State (n : Nat) (Background : Type*) where
  counters : Fin (n + 1) × CounterType → UInt64
  pending : Fin n ⊕ Background → Option Pending
  call : Stream → Option (Call n)
  last : Stream → CounterType → UInt64
  asked : Fin n ⊕ Background → Option (CounterType × UInt64)
  added : Fin n × CounterType → List UInt64
  reads : Stream → Reads n
  reports : Stream → List (Report n)

inductive Action (n : Nat) (Background : Type*) where
  | load (thread : Fin n ⊕ Background) (type : CounterType) (val : UInt64)
  | store (thread : Fin n ⊕ Background)
  | begin (stream : Stream)
  | read (stream : Stream)
  | finish (stream : Stream)

variable {n : Nat} {Background : Type*}

/-- All background threads have the same thread id. -/
def threadId : Fin n ⊕ Background → Fin (n + 1)
  | .inl worker => worker.castSucc
  | .inr _ => Fin.last n

def beginCall (n : Nat) : Call n := { val := fun _ => 0, todo := mergeOrder n }

def mergeSlot (s : State n Background) (call : Call n) (slot : Fin n × CounterType)
    (rest : List (Fin n × CounterType)) : Call n :=
  { val := Function.update call.val slot.2
      (call.val slot.2 + s.counters (slot.1.castSucc, slot.2))
    todo := rest }

/-- `sb_counters_checkpoint`: what is returned in `dst`, and the new `cp`. -/
def checkpoint (dst cp : CounterType → UInt64) :
    (CounterType → UInt64) × (CounterType → UInt64) :=
  (fun t => dst t - cp t, dst)

/-! What `step` records. -/
section History

def recordAdded (added : Fin n × CounterType → List UInt64) :
    Fin n ⊕ Background → Option (CounterType × UInt64) → Fin n × CounterType → List UInt64
  | .inl worker, some (type, val) =>
      Function.update added (worker, type) (added (worker, type) ++ [val])
  | _, _ => added

def unread (n : Nat) : Reads n := { slots := fun _ => 0, seen := fun _ => 0 }

def recordRead (s : State n Background) (reads : Reads n) (slot : Fin n × CounterType) : Reads n :=
  { slots := Function.update reads.slots slot (s.counters (slot.1.castSucc, slot.2))
    seen := Function.update reads.seen slot (s.added slot).length }

def recordReport (s : State n Background) (stream : Stream) (val : CounterType → UInt64) :
    Stream → List (Report n) :=
  Function.update s.reports stream (s.reports stream ++ [{
    val := val, slots := (s.reads stream).slots, seen := (s.reads stream).seen }])

end History

section Steps
variable [DecidableEq Background]

def load (s : State n Background) (thread : Fin n ⊕ Background) (type : CounterType)
    (val : UInt64) : State n Background :=
  { s with
    pending := Function.update s.pending thread
      (some ⟨type, val, s.counters (threadId thread, type)⟩) }

def store (s : State n Background) (thread : Fin n ⊕ Background) (add : Pending) :
    State n Background :=
  { s with
    counters := Function.update s.counters (threadId thread, add.type) (add.loaded + add.val)
    pending := Function.update s.pending thread none }

/-- The end of a call: the streams have a checkpoint each. -/
def finish (s : State n Background) (stream : Stream) (call : Call n) : State n Background :=
  { s with
    call := Function.update s.call stream none
    last := Function.update s.last stream (checkpoint call.val (s.last stream)).2 }

def step (s : State n Background) : Action n Background → Option (State n Background)
  | .load thread type val =>
      match s.pending thread with
      | none => some { load s thread type val with
          asked := Function.update s.asked thread (some (type, val)) }
      | some _ => none
  | .store thread => (s.pending thread).map fun add =>
      { store s thread add with added := recordAdded s.added thread (s.asked thread) }
  | .begin stream =>
      match s.call stream with
      | none => some { s with
          call := Function.update s.call stream (some (beginCall n))
          reads := Function.update s.reads stream (unread n) }
      | some _ => none
  | .read stream =>
      match s.call stream with
      | some call =>
          match call.todo with
          | slot :: rest => some { s with
              call := Function.update s.call stream (some (mergeSlot s call slot rest))
              reads := Function.update s.reads stream (recordRead s (s.reads stream) slot) }
          | [] => none
      | none => none
  | .finish stream =>
      match s.call stream with
      | some call =>
          if call.todo = [] then
            some { finish s stream call with
              reports := recordReport s stream (checkpoint call.val (s.last stream)).1 }
          else none
      | none => none

end Steps

def start (n : Nat) (Background : Type*) : State n Background :=
  { counters := fun _ => 0, pending := fun _ => none, call := fun _ => none
    last := fun _ _ => 0, asked := fun _ => none, added := fun _ => []
    reads := fun _ => unread n, reports := fun _ => [] }

/-! What the reports are to be. -/
section Reports

def lastSeen (reports : List (Report n)) : Fin n × CounterType → Nat :=
  match reports.getLast? with
  | some report => report.seen
  | none => fun _ => 0

def lastSlots (reports : List (Report n)) : Fin n × CounterType → UInt64 :=
  match reports.getLast? with
  | some report => report.slots
  | none => fun _ => 0

/-- The report has just the increments that its call was the first to see. -/
structure ReportedOnce (added : Fin n × CounterType → List UInt64) (before : List (Report n))
    (report : Report n) : Prop where
  val : ∀ t, report.val t =
    ∑ i, (((added (i, t)).take (report.seen (i, t))).drop (lastSeen before (i, t))).sum
  slots : ∀ slot, report.slots slot = ((added slot).take (report.seen slot)).sum
  further : ∀ slot, lastSeen before slot ≤ report.seen slot
  real : ∀ slot, report.seen slot ≤ (added slot).length

structure CountersReported (s : State n Background) : Prop where
  counters : ∀ i t, s.counters (i.castSucc, t) = (s.added (i, t)).sum
  once : ∀ stream k report, (s.reports stream)[k]? = some report →
    ReportedOnce s.added ((s.reports stream).take k) report
  total : ∀ stream t, ((s.reports stream).map fun report => report.val t).sum =
    ∑ i, lastSlots (s.reports stream) (i, t)

@[simp] theorem last_seen_concat (reports : List (Report n)) (report : Report n) :
    lastSeen (reports ++ [report]) = report.seen := by
  simp [lastSeen]

@[simp] theorem last_slots_concat (reports : List (Report n)) (report : Report n) :
    lastSlots (reports ++ [report]) = report.slots := by
  simp [lastSlots]

theorem merge_order_nodup (n : Nat) : (mergeOrder n).Nodup := by
  rw [mergeOrder, List.nodup_flatMap]
  constructor
  · intro t _
    exact (List.nodup_finRange n).map fun i j same => (Prod.mk.inj same).1
  · have types : CounterType.all.Nodup := by decide
    apply types.imp
    intro t t' apart slot here there
    obtain ⟨i, _, rfl⟩ := List.mem_map.mp here
    obtain ⟨j, _, same⟩ := List.mem_map.mp there
    exact apart (Prod.mk.inj same).2.symm

theorem merge_order_all (slot : Fin n × CounterType) : slot ∈ mergeOrder n := by
  have type : slot.2 ∈ CounterType.all := by
    cases slot.2 <;> decide
  exact List.mem_flatMap.mpr ⟨slot.2, type, List.mem_map.mpr ⟨slot.1, List.mem_finRange _, rfl⟩⟩

/-- The increments between two reads of a slot. -/
theorem sum_between (amounts : List UInt64) (before seen : Nat) (further : before ≤ seen) :
    ((amounts.take seen).drop before).sum =
      (amounts.take seen).sum - (amounts.take before).sum := by
  have whole := List.take_append_drop before (amounts.take seen)
  rw [List.take_take, Nat.min_eq_left further] at whole
  rw [eq_sub_iff_add_eq, add_comm, ← List.sum_append, whole]

/-- Increments that come later do not change what was seen. -/
theorem take_grown (before after : List UInt64) (seen : Nat) (real : seen ≤ before.length)
    (grown : before <+: after) : after.take seen = before.take seen := by
  obtain ⟨more, rfl⟩ := grown
  exact List.take_append_of_le_length real

theorem reported_grown (older added : Fin n × CounterType → List UInt64)
    (before : List (Report n)) (report : Report n) (once : ReportedOnce older before report)
    (grown : ∀ slot, older slot <+: added slot) : ReportedOnce added before report := by
  have same (slot : Fin n × CounterType) : (added slot).take (report.seen slot) =
      (older slot).take (report.seen slot) :=
    take_grown _ _ _ (once.real slot) (grown slot)
  constructor
  case val =>
    intro t
    simp only [same]
    exact once.val t
  case slots =>
    intro slot
    rw [same]
    exact once.slots slot
  case further => exact once.further
  case real => exact fun slot => (once.real slot).trans (grown slot).length_le

end Reports

/-! What every step keeps. -/
section Invariant
variable {s t : State n Background}

/-- A call in progress. Its `val` is the total of what it has read. -/
structure CallTracked (added : Fin n × CounterType → List UInt64) (before : List (Report n))
    (call : Call n) (reads : Reads n) : Prop where
  val : ∀ t, call.val t = ∑ i, reads.slots (i, t)
  slots : ∀ slot, reads.slots slot = ((added slot).take (reads.seen slot)).sum
  real : ∀ slot, reads.seen slot ≤ (added slot).length
  further : ∀ slot, slot ∉ call.todo → lastSeen before slot ≤ reads.seen slot
  unread : ∀ slot ∈ call.todo, reads.slots slot = 0
  nodup : call.todo.Nodup

structure Tracked (s : State n Background) : Prop where
  kept : CountersReported s
  pending : ∀ worker add, s.pending (.inl worker) = some add →
    add.loaded = s.counters (worker.castSucc, add.type)
  asked : ∀ worker add, s.pending (.inl worker) = some add →
    s.asked (.inl worker) = some (add.type, add.val)
  last : ∀ stream t, s.last stream t = ∑ i, lastSlots (s.reports stream) (i, t)
  lastSlots : ∀ stream slot, lastSlots (s.reports stream) slot =
    ((s.added slot).take (lastSeen (s.reports stream) slot)).sum
  lastSeen : ∀ stream slot, lastSeen (s.reports stream) slot ≤ (s.added slot).length
  call : ∀ stream call, s.call stream = some call →
    CallTracked s.added (s.reports stream) call (s.reads stream)

/-- A store to the slots keeps everything that was read before it. -/
theorem grown_tracked (tracked : Tracked s) (counters : Fin (n + 1) × CounterType → UInt64)
    (pending : Fin n ⊕ Background → Option Pending)
    (asked : Fin n ⊕ Background → Option (CounterType × UInt64))
    (added : Fin n × CounterType → List UInt64) (grown : ∀ slot, s.added slot <+: added slot)
    (slots : ∀ i t, counters (i.castSucc, t) = (added (i, t)).sum)
    (loaded : ∀ worker add, pending (.inl worker) = some add →
      add.loaded = counters (worker.castSucc, add.type) ∧
        asked (.inl worker) = some (add.type, add.val)) :
    Tracked { s with
      counters := counters, pending := pending, asked := asked, added := added } := by
  constructor
  case kept =>
    constructor
    case counters => exact slots
    case once =>
      intro stream k report here
      exact reported_grown s.added added _ report (tracked.kept.once stream k report here) grown
    case total => exact tracked.kept.total
  case pending => exact fun worker add here => (loaded worker add here).1
  case asked => exact fun worker add here => (loaded worker add here).2
  case last => exact tracked.last
  case lastSlots =>
    intro stream slot
    rw [take_grown _ _ _ (tracked.lastSeen stream slot) (grown slot)]
    exact tracked.lastSlots stream slot
  case lastSeen =>
    exact fun stream slot => (tracked.lastSeen stream slot).trans (grown slot).length_le
  case call =>
    intro stream call here
    have inProgress := tracked.call stream call here
    constructor
    case val => exact inProgress.val
    case slots =>
      intro slot
      rw [take_grown _ _ _ (inProgress.real slot) (grown slot)]
      exact inProgress.slots slot
    case real => exact fun slot => (inProgress.real slot).trans (grown slot).length_le
    case further => exact inProgress.further
    case unread => exact inProgress.unread
    case nodup => exact inProgress.nodup

theorem recorded_grown (added : Fin n × CounterType → List UInt64) (thread : Fin n ⊕ Background)
    (asked : Option (CounterType × UInt64)) (slot : Fin n × CounterType) :
    added slot <+: recordAdded added thread asked slot := by
  rcases thread with worker | background
  · rcases asked with none | ⟨type, val⟩
    · exact List.prefix_rfl
    · by_cases own : slot = (worker, type)
      · subst own
        simp [recordAdded]
      · simp [recordAdded, own]
  · exact List.prefix_rfl

theorem begun_tracked (added : Fin n × CounterType → List UInt64) (before : List (Report n)) :
    CallTracked added before (beginCall n) (unread n) := by
  constructor
  case val => simp [beginCall, unread]
  case slots => simp [unread]
  case real => exact fun _ => Nat.zero_le _
  case further => exact fun slot read => absurd (merge_order_all slot) read
  case unread => exact fun _ _ => rfl
  case nodup => exact merge_order_nodup n

/-- One more slot is read, which was not read before. -/
theorem merged_tracked (tracked : Tracked s) (stream : Stream) (call : Call n)
    (slot : Fin n × CounterType) (rest : List (Fin n × CounterType))
    (inProgress : CallTracked s.added (s.reports stream) call (s.reads stream))
    (next : call.todo = slot :: rest) :
    CallTracked s.added (s.reports stream) (mergeSlot s call slot rest)
      (recordRead s (s.reads stream) slot) := by
  have nodup := inProgress.nodup
  rw [next, List.nodup_cons] at nodup
  -- the slot read now was not read in this call before
  have unread : (s.reads stream).slots slot = 0 :=
    inProgress.unread slot (by rw [next]; exact List.mem_cons_self)
  have read : s.counters (slot.1.castSucc, slot.2) = (s.added slot).sum :=
    tracked.kept.counters slot.1 slot.2
  constructor
  case val =>
    intro t
    by_cases own : t = slot.2
    · subst own
      have total := total_moved (fun i => (s.reads stream).slots (i, slot.2))
        (fun i => Function.update (s.reads stream).slots slot (s.counters (slot.1.castSucc, slot.2))
          (i, slot.2))
        slot.1 fun i other => Function.update_of_ne (fun same => other (congrArg Prod.fst same)) _ _
      simp only [Prod.mk.eta, unread, add_zero, Function.update_self] at total
      simp only [mergeSlot, recordRead, Function.update_self, total, inProgress.val]
    · have other (i : Fin n) : (i, t) ≠ slot := fun same => own (congrArg Prod.snd same)
      simp only [mergeSlot, recordRead, Function.update_of_ne own, Function.update_of_ne (other _),
        inProgress.val]
  case slots =>
    intro other
    by_cases own : other = slot
    · subst own
      simp [recordRead, read]
    · simp [recordRead, own, inProgress.slots other]
  case real =>
    intro other
    by_cases own : other = slot
    · subst own
      simp [recordRead]
    · simp [recordRead, own, inProgress.real other]
  case further =>
    intro other done
    by_cases own : other = slot
    · subst own
      simpa [recordRead] using tracked.lastSeen stream other
    · have before : other ∉ call.todo := by
        rw [next]
        exact List.not_mem_cons_of_ne_of_not_mem own done
      simpa [recordRead, own] using inProgress.further other before
  case unread =>
    intro other todo
    have own : other ≠ slot := by
      rintro rfl
      exact nodup.1 todo
    have before : other ∈ call.todo := by
      rw [next]
      exact List.mem_cons_of_mem slot todo
    simpa [recordRead, own] using inProgress.unread other before
  case nodup => exact nodup.2

theorem call_tracked (tracked : Tracked s) (stream : Stream) (call : Call n) (reads : Reads n)
    (inProgress : CallTracked s.added (s.reports stream) call reads) :
    Tracked { s with
      call := Function.update s.call stream (some call)
      reads := Function.update s.reads stream reads } := by
  refine { tracked with
    kept := ⟨tracked.kept.counters, tracked.kept.once, tracked.kept.total⟩
    call := fun other found here => ?_ }
  simp only at here ⊢
  by_cases own : other = stream
  · subst own
    rw [Function.update_self] at here ⊢
    exact Option.some.inj here ▸ inProgress
  · rw [Function.update_of_ne own] at here ⊢
    exact tracked.call other found here

/-- The difference of two totals is the total of what lies between. -/
theorem report_once (tracked : Tracked s) (stream : Stream) (call : Call n) (reads : Reads n)
    (inProgress : CallTracked s.added (s.reports stream) call reads) (done : call.todo = []) :
    ReportedOnce s.added (s.reports stream) {
      val := (checkpoint call.val (s.last stream)).1
      slots := reads.slots
      seen := reads.seen } := by
  have further (slot : Fin n × CounterType) :
      lastSeen (s.reports stream) slot ≤ reads.seen slot :=
    inProgress.further slot (by rw [done]; exact List.not_mem_nil)
  constructor
  case val =>
    intro t
    simp only [checkpoint, inProgress.val, tracked.last, sum_between _ _ _ (further _),
      ← inProgress.slots, ← tracked.lastSlots, Finset.sum_sub_distrib]
  case slots => exact inProgress.slots
  case further => exact further
  case real => exact inProgress.real

/-- The state behind the end of a call, with its report. -/
def reported (s : State n Background) (stream : Stream) (call : Call n) : State n Background :=
  { finish s stream call with
    reports := recordReport s stream (checkpoint call.val (s.last stream)).1 }

theorem reported_kept (tracked : Tracked s) (stream : Stream) (call : Call n)
    (inProgress : CallTracked s.added (s.reports stream) call (s.reads stream))
    (done : call.todo = []) : CountersReported (reported s stream call) := by
  constructor
  case counters => exact tracked.kept.counters
  case once =>
    intro other k report here
    by_cases own : other = stream
    · subst own
      simp only [reported, recordReport, Function.update_self] at here ⊢
      by_cases old : k < (s.reports other).length
      · rw [List.getElem?_append_left old] at here
        rw [List.take_append_of_le_length old.le]
        exact tracked.kept.once other k report here
      · have bound := (List.getElem?_eq_some_iff.mp here).1
        rw [List.length_append, List.length_singleton] at bound
        obtain rfl : k = (s.reports other).length := by omega
        rw [List.getElem?_concat_length] at here
        rw [List.take_left, ← Option.some.inj here]
        exact report_once tracked other call _ inProgress done
    · simp only [reported, recordReport, Function.update_of_ne own] at here ⊢
      exact tracked.kept.once other k report here
  case total =>
    intro other t
    by_cases own : other = stream
    · subst own
      simp only [reported, recordReport, checkpoint, Function.update_self, List.map_append,
        List.sum_append, tracked.kept.total, last_slots_concat, List.map_singleton,
        List.sum_singleton, inProgress.val, tracked.last, add_sub_cancel]
    · simp only [reported, recordReport, Function.update_of_ne own]
      exact tracked.kept.total other t

theorem reported_tracked (tracked : Tracked s) (stream : Stream) (call : Call n)
    (inProgress : CallTracked s.added (s.reports stream) call (s.reads stream))
    (done : call.todo = []) : Tracked (reported s stream call) := by
  constructor
  case kept => exact reported_kept tracked stream call inProgress done
  case pending => exact tracked.pending
  case asked => exact tracked.asked
  case last =>
    intro other t
    by_cases own : other = stream
    · subst own
      simp only [reported, finish, recordReport, checkpoint, Function.update_self,
        last_slots_concat, inProgress.val]
    · simp only [reported, finish, recordReport, Function.update_of_ne own]
      exact tracked.last other t
  case lastSlots =>
    intro other slot
    by_cases own : other = stream
    · subst own
      simp only [reported, finish, recordReport, Function.update_self, last_slots_concat,
        last_seen_concat]
      exact inProgress.slots slot
    · simp only [reported, finish, recordReport, Function.update_of_ne own]
      exact tracked.lastSlots other slot
  case lastSeen =>
    intro other slot
    by_cases own : other = stream
    · subst own
      simp only [reported, finish, recordReport, Function.update_self, last_seen_concat]
      exact inProgress.real slot
    · simp only [reported, finish, recordReport, Function.update_of_ne own]
      exact tracked.lastSeen other slot
  case call =>
    intro other found here
    by_cases own : other = stream
    · subst own
      simp only [reported, finish, Function.update_self] at here
      cases here
    · simp only [reported, finish, recordReport, Function.update_of_ne own] at here ⊢
      exact tracked.call other found here

section Steps
variable [DecidableEq Background]

theorem load_tracked (tracked : Tracked s) (thread : Fin n ⊕ Background) (type : CounterType)
    (val : UInt64) :
    Tracked { load s thread type val with
      asked := Function.update s.asked thread (some (type, val)) } := by
  apply grown_tracked tracked s.counters _ _ s.added (fun _ => List.prefix_rfl)
    tracked.kept.counters
  intro worker add here
  simp only [load] at here ⊢
  by_cases own : .inl worker = thread
  · subst own
    rw [Function.update_self] at here ⊢
    obtain rfl := Option.some.inj here
    exact ⟨rfl, rfl⟩
  · rw [Function.update_of_ne own] at here ⊢
    exact ⟨tracked.pending worker add here, tracked.asked worker add here⟩

/-- A worker's slot has one writer, so that no increment of it is lost. -/
theorem store_tracked (tracked : Tracked s) (thread : Fin n ⊕ Background) (add : Pending)
    (here : s.pending thread = some add) :
    Tracked { store s thread add with added := recordAdded s.added thread (s.asked thread) } := by
  apply grown_tracked tracked _ _ s.asked _ (recorded_grown s.added thread (s.asked thread))
  · intro i t
    simp only [store]
    have before := tracked.kept.counters i t
    cases thread with
    | inr _ =>
        have other : (i.castSucc, t) ≠ (Fin.last n, add.type) := by
          simp [Fin.castSucc_ne_last]
        simp only [threadId, recordAdded, Function.update_of_ne other, before]
    | inl worker =>
        rw [tracked.asked worker add here]
        by_cases own : (i, t) = (worker, add.type)
        · obtain ⟨rfl, rfl⟩ := Prod.mk.inj own
          simp [threadId, recordAdded, tracked.pending i add here, before]
        · have other : (i.castSucc, t) ≠ (worker.castSucc, add.type) := by
            simpa using own
          simp only [threadId, recordAdded, Function.update_of_ne other,
            Function.update_of_ne own, before]
  · intro worker later waiting
    simp only [store] at waiting ⊢
    by_cases own : .inl worker = thread
    · subst own
      rw [Function.update_self] at waiting
      cases waiting
    · rw [Function.update_of_ne own] at waiting
      have other : (worker.castSucc, later.type) ≠ (threadId thread, add.type) := by
        intro same
        have slot := (Prod.mk.inj same).1
        cases thread with
        | inr _ => exact Fin.castSucc_ne_last worker slot
        | inl v => exact own (congrArg Sum.inl (Fin.castSucc_injective n slot))
      rw [Function.update_of_ne other]
      exact ⟨tracked.pending worker later waiting, tracked.asked worker later waiting⟩

theorem step_tracked (a : Action n Background) (tracked : Tracked s) (taken : step s a = some t) :
    Tracked t := by
  cases a with
  | load thread type val =>
      cases idle : s.pending thread with
      | some add => simp [step, idle] at taken
      | none =>
          simp only [step, idle, Option.some.injEq] at taken
          exact taken ▸ load_tracked tracked thread type val
  | store thread =>
      obtain ⟨add, here, rfl⟩ := Option.map_eq_some_iff.mp taken
      exact store_tracked tracked thread add here
  | begin stream =>
      cases idle : s.call stream with
      | some call => simp [step, idle] at taken
      | none =>
          simp only [step, idle, Option.some.injEq] at taken
          exact taken ▸ call_tracked tracked stream _ _ (begun_tracked _ _)
  | read stream =>
      cases here : s.call stream with
      | none => simp [step, here] at taken
      | some call =>
          have inProgress := tracked.call stream call here
          cases next : call.todo with
          | nil => simp [step, here, next] at taken
          | cons slot rest =>
              simp only [step, here, next, Option.some.injEq] at taken
              exact taken ▸ call_tracked tracked stream _ _
                (merged_tracked tracked stream call slot rest inProgress next)
  | finish stream =>
      cases here : s.call stream with
      | none => simp [step, here] at taken
      | some call =>
          simp only [step, here] at taken
          obtain ⟨done, taken⟩ := Option.ite_none_right_eq_some.mp taken
          exact Option.some.inj taken ▸
            reported_tracked tracked stream call (tracked.call stream call here) done

end Steps

theorem start_tracked (n : Nat) (Background : Type*) : Tracked (start n Background) := by
  constructor
  case kept =>
    constructor
    · exact fun _ _ => rfl
    · intro stream k report here
      cases here
    · intro stream t
      simp [start, lastSlots]
  case pending | asked =>
    intro worker add here
    cases here
  case last =>
    intro stream t
    simp [start, lastSlots]
  case lastSlots => exact fun _ _ => rfl
  case lastSeen => exact fun _ _ => Nat.le_refl 0
  case call =>
    intro stream call here
    cases here

end Invariant

end PteSysbench.SbCounter
