import PteSysbench.EventLoop
import PteSysbench.MemoryWalk
import Mathlib.Algebra.BigOperators.Fin
import Mathlib.Algebra.Order.BigOperators.Group.Finset
import Mathlib.Data.List.GetD

/-!
The work of the memory test. Every thread counts its own share of the blocks down
in `memory_next_event`; the event limit of the loop is switched off.
-/

namespace PteSysbench.MemoryTotal

open ActionSystem EventLoop MemoryWalk

/-- The C loop without time and rate limits, with the event limit of `memory_init`. -/
def cfg : Globals := { loop := .c, txRate := 0, maxEvents := 0, maxTimeNs := 0 }

/-- `executed` is history: the events each thread has executed. -/
structure State (n : Nat) where
  loop : EventLoop.State n
  threadCounters : Fin n → UInt64
  executed : Fin n → Nat

inductive Action (n : Nat) where
  | tick (now : Nat)
  | endWarmup
  | worker (w : Fin n)
  | event (w : Fin n)

/-- `memory_next_event`: whether the request is SB_REQ_TYPE_NULL, and the counter after it. -/
def memoryNextEvent (totalSize : Int) (counter : UInt64) : Bool × UInt64 :=
  if 0 < totalSize then (counter == 0, counter - 1) else (false, counter)

section Steps
variable {n : Nat}

/-- The loop body of `thread_run`; the event functions return 0. -/
def bodyStep (totalSize : Int) (s : State n) (w : Fin n) : Option (State n) :=
  let (null, counter) := memoryNextEvent totalSize (s.threadCounters w)
  let counters := Function.update s.threadCounters w counter
  if null then
    (eventStep cfg s.loop w .nullEvent).map fun loop =>
      { s with loop := loop, threadCounters := counters }
  else
    (eventStep cfg s.loop w .finished).map fun loop =>
      { loop := loop
        threadCounters := counters
        executed := Function.update s.executed w (s.executed w + 1) }

def step (totalSize : Int) (s : State n) : Action n → Option (State n)
  | .tick now =>
      (EventLoop.step cfg s.loop (.tick now)).map fun loop => { s with loop := loop }
  | .endWarmup => (EventLoop.step cfg s.loop .endWarmup).map fun loop => { s with loop := loop }
  | .worker w => (workerStep cfg s.loop w).map fun loop => { s with loop := loop }
  | .event w => bodyStep totalSize s w

/-- The workers behind the start barrier, after `memory_init`. -/
def start (mem : MemoryState) : State n :=
  { loop := EventLoop.start n 0
    threadCounters := fun w => UInt64.ofNat (mem.threadCounters.getD w 0)
    executed := fun _ => 0 }

def AllLeft (s : State n) : Prop := ∀ w, (s.loop.worker w).pc = .left

end Steps

/-! Where a worker can be, and what each place is worth. -/
section Places

def looping : WorkerPc → Bool
  | .checkError | .checkTime | .loadLimit | .returned true | .running => true
  | _ => false

def ending : WorkerPc → Bool
  | .exiting | .left => true
  | _ => false

def nextPc : WorkerPc → WorkerPc
  | .checkError => .checkTime
  | .checkTime => .loadLimit
  | .loadLimit => .returned true
  | .returned _ => .running
  | _ => .left

/-- Steps a worker with this counter still takes. -/
def potential (counter : UInt64) : WorkerPc → Nat
  | .checkError => 6 * counter.toNat + 6
  | .checkTime => 6 * counter.toNat + 5
  | .loadLimit => 6 * counter.toNat + 4
  | .returned _ => 6 * counter.toNat + 3
  | .running => 6 * counter.toNat + 2
  | .exiting => 1
  | _ => 0

theorem looping_next (pc : WorkerPc) (loops : looping pc = true) (outside : pc ≠ .running) :
    looping (nextPc pc) = true := by
  cases pc <;> first | rfl | contradiction

theorem ending_next (pc : WorkerPc) (ends : ending pc = true) : ending (nextPc pc) = true := by
  cases pc <;> first | rfl | cases ends

theorem potential_next (counter : UInt64) (pc : WorkerPc)
    (placed : looping pc = true ∨ ending pc = true) (outside : pc ≠ .running)
    (here : pc ≠ .left) : potential counter (nextPc pc) < potential counter pc := by
  cases pc <;> simp [looping, ending, nextPc, potential] at placed outside here ⊢

end Places

section Work
variable {n : Nat} {totalSize : Int} {share : Nat} {s t : State n}

/-- No error, no event limit, and every thread has its share of events ahead or behind. -/
structure Working (share : Nat) (s : State n) : Prop where
  error : s.loop.error = false
  maxEvents : s.loop.maxEvents = 0
  rc : ∀ w, (s.loop.worker w).rc = false
  shared : ∀ w,
    looping (s.loop.worker w).pc = true ∧ s.executed w + (s.threadCounters w).toNat = share ∨
      ending (s.loop.worker w).pc = true ∧ s.executed w = share

/-- Outside the event every step of a worker goes to one place. -/
theorem worker_step_goto (working : Working share s) (w : Fin n) :
    workerStep cfg s.loop w =
      if (s.loop.worker w).pc = .running ∨ (s.loop.worker w).pc = .left then none
      else some (s.loop.goto w (nextPc (s.loop.worker w).pc)) := by
  have place := working.shared w
  have raised : { s.loop with error := s.loop.error || (s.loop.worker w).rc } = s.loop := by
    rw [working.rc w, Bool.or_false]
  cases pc : (s.loop.worker w).pc
  case checkError => simp [workerStep, pc, working.error, nextPc]
  case checkTime => simp [workerStep, pc, timeUp, cfg, nextPc]
  case loadLimit => simp [workerStep, pc, working.maxEvents, afterLimits, cfg, nextPc]
  case returned more =>
    cases more with
    | true => simp [workerStep, pc, working.rc w, nextPc]
    | false => simp [pc, looping, ending] at place
  case running => simp [workerStep, pc]
  case exiting => simp [workerStep, pc, raised, nextPc]
  case left => simp [workerStep, pc]
  all_goals simp [pc, looping, ending] at place

theorem body_step_goto (positive : 0 < totalSize) (w : Fin n)
    (running : (s.loop.worker w).pc = .running) :
    bodyStep totalSize s w =
      if s.threadCounters w = 0 then
        some { s with
          loop := s.loop.goto w .exiting
          threadCounters := Function.update s.threadCounters w (s.threadCounters w - 1) }
      else
        some { loop := s.loop.goto w .checkError
               threadCounters := Function.update s.threadCounters w (s.threadCounters w - 1)
               executed := Function.update s.executed w (s.executed w + 1) } := by
  by_cases none : s.threadCounters w = 0
  · simp [bodyStep, memoryNextEvent, positive, none, eventStep, running, cfg]
  · simp [bodyStep, memoryNextEvent, positive, none, eventStep, running, cfg, sbEventStop,
      EventLoop.State.goto]

theorem body_step_running (w : Fin n) (taken : bodyStep totalSize s w = some t) :
    (s.loop.worker w).pc = .running := by
  by_contra elsewhere
  unfold bodyStep at taken
  cases memoryNextEvent totalSize (s.threadCounters w) with
  | mk null counter => cases null <;> simp [eventStep, elsewhere] at taken

/-- One worker goes to another place, with its own counts. -/
def moved (s : State n) (w : Fin n) (pc : WorkerPc) (counter : UInt64) (executed : Nat) : State n :=
  { loop := s.loop.goto w pc
    threadCounters := Function.update s.threadCounters w counter
    executed := Function.update s.executed w executed }

/-- A move of one worker keeps the shares of the others. -/
theorem working_moved (working : Working share s) (w : Fin n) (pc : WorkerPc) (counter : UInt64)
    (executed : Nat)
    (own : looping pc = true ∧ executed + counter.toNat = share ∨
      ending pc = true ∧ executed = share) :
    Working share (moved s w pc counter executed) := by
  refine ⟨working.error, working.maxEvents, fun v => ?_, fun v => ?_⟩
  · by_cases same : v = w
    · subst same
      simpa [moved] using working.rc v
    · simpa [moved, same] using working.rc v
  · by_cases same : v = w
    · subst same
      simpa [moved] using own
    · simpa [moved, same] using working.shared v

/-- The step of a worker that has not left yet, whichever it is. -/
def ownAction (s : State n) (w : Fin n) : Action n :=
  if (s.loop.worker w).pc = .running then .event w else .worker w

/-- It is taken, keeps the shares and brings the worker closer to its end. -/
theorem own_step (positive : 0 < totalSize) (working : Working share s) (w : Fin n)
    (here : (s.loop.worker w).pc ≠ .left) :
    ∃ pc counter executed,
      step totalSize s (ownAction s w) = some (moved s w pc counter executed) ∧
      (looping pc = true ∧ executed + counter.toNat = share ∨
        ending pc = true ∧ executed = share) ∧
      potential counter pc < potential (s.threadCounters w) (s.loop.worker w).pc := by
  have place := working.shared w
  by_cases running : (s.loop.worker w).pc = .running
  · rw [running] at place
    simp only [looping, ending, true_and, Bool.false_eq_true, false_and, or_false] at place
    -- the counter is tested before it is decremented; at 0 the thread stops
    by_cases none : s.threadCounters w = 0
    · refine ⟨.exiting, s.threadCounters w - 1, s.executed w, ?_, Or.inr ⟨rfl, ?_⟩, ?_⟩
      · rw [ownAction, if_pos running, moved, Function.update_eq_self]
        exact (body_step_goto positive w running).trans (if_pos none)
      · rw [none] at place
        exact place
      · simp [running, potential]
    · have more : 1 ≤ (s.threadCounters w).toNat :=
        Nat.one_le_iff_ne_zero.mpr fun zero => none (UInt64.toNat_inj.mp zero)
      have counted : (s.threadCounters w - 1).toNat = (s.threadCounters w).toNat - 1 :=
        UInt64.toNat_sub_of_le _ _ (UInt64.le_iff_toNat_le.mpr more)
      refine ⟨.checkError, s.threadCounters w - 1, s.executed w + 1, ?_, Or.inl ⟨rfl, ?_⟩, ?_⟩
      · rw [ownAction, if_pos running]
        exact (body_step_goto positive w running).trans (if_neg none)
      · omega
      · simp only [running, potential]
        omega
  · refine ⟨nextPc (s.loop.worker w).pc, s.threadCounters w, s.executed w, ?_, ?_, ?_⟩
    · have goes := worker_step_goto working w
      rw [if_neg (not_or.mpr ⟨running, here⟩)] at goes
      rw [ownAction, if_neg running, moved, Function.update_eq_self, Function.update_eq_self, step,
        goes]
      rfl
    · rcases place with ⟨loops, counted⟩ | ⟨ends, counted⟩
      · exact Or.inl ⟨looping_next _ loops running, counted⟩
      · exact Or.inr ⟨ending_next _ ends, counted⟩
    · exact potential_next _ _ (place.imp And.left And.left) running here

/-- The worker and event steps of a run are the own steps of their workers. -/
theorem own_action_taken (working : Working share s) (w : Fin n) (a : Action n)
    (mine : a = .worker w ∨ a = .event w) (taken : step totalSize s a = some t) :
    a = ownAction s w ∧ (s.loop.worker w).pc ≠ .left := by
  rcases mine with rfl | rfl
  · by_cases stays : (s.loop.worker w).pc = .running ∨ (s.loop.worker w).pc = .left
    · rw [step, worker_step_goto working w, if_pos stays] at taken
      cases taken
    · obtain ⟨outside, here⟩ := not_or.mp stays
      exact ⟨(if_neg outside).symm, here⟩
  · have running := body_step_running w taken
    refine ⟨(if_pos running).symm, ?_⟩
    rw [running]
    exact nofun

theorem step_working (positive : 0 < totalSize) (s : State n) (a : Action n) (t : State n)
    (working : Working share s) (taken : step totalSize s a = some t) : Working share t := by
  have own (w : Fin n) (mine : a = .worker w ∨ a = .event w) : Working share t := by
    obtain ⟨same, here⟩ := own_action_taken working w a mine taken
    obtain ⟨pc, counter, executed, goes, shared, _⟩ := own_step positive working w here
    rw [same, goes] at taken
    exact Option.some.inj taken ▸ working_moved working w pc counter executed shared
  cases a with
  | tick now =>
      obtain ⟨loop, ticked, rfl⟩ := Option.map_eq_some_iff.mp taken
      obtain ⟨_, ticked⟩ := Option.ite_none_right_eq_some.mp ticked
      obtain rfl := Option.some.inj ticked
      exact ⟨working.error, working.maxEvents, working.rc, working.shared⟩
  | endWarmup =>
      obtain rfl := Option.some.inj taken
      exact ⟨working.error, rfl, working.rc, working.shared⟩
  | worker w => exact own w (Or.inl rfl)
  | event w => exact own w (Or.inr rfl)

theorem run_working (positive : 0 < totalSize) (s t : State n) (schedule : List (Action n))
    (working : Working share s) (reached : run (step totalSize) s schedule = some t) :
    Working share t := by
  have all := invariant_keeps (step_working positive) s (schedule ++ []) working
  exact always_reached s t schedule [] all reached

/-- When every worker has left, each has executed its share. -/
theorem left_total (working : Working share t) (left : AllLeft t) :
    ∑ w, t.executed w = n * share := by
  have each (w : Fin n) : t.executed w = share := by
    rcases working.shared w with ⟨loops, _⟩ | ⟨_, all⟩
    · rw [left w] at loops
      cases loops
    · exact all
  simp [each]

def remaining (s : State n) : Nat :=
  ∑ w, potential (s.threadCounters w) (s.loop.worker w).pc

theorem remaining_moved (s : State n) (w : Fin n) (pc : WorkerPc) (counter : UInt64)
    (executed : Nat) (less : potential counter pc <
      potential (s.threadCounters w) (s.loop.worker w).pc) :
    remaining (moved s w pc counter executed) < remaining s := by
  apply Finset.sum_lt_sum
  · intro v _
    by_cases same : v = w
    · subst same
      simpa [moved] using Nat.le_of_lt less
    · simp [moved, same]
  · exact ⟨w, Finset.mem_univ w, by simpa [moved] using less⟩

/-- The workers can leave from every state. -/
theorem workers_leave (positive : 0 < totalSize) (steps : Nat) (s : State n)
    (working : Working share s) (bound : remaining s ≤ steps) :
    ∃ schedule t, run (step totalSize) s schedule = some t ∧ AllLeft t := by
  induction steps generalizing s with
  | zero =>
      refine ⟨[], s, rfl, fun w => ?_⟩
      by_contra here
      obtain ⟨_, _, _, _, _, less⟩ := own_step positive working w here
      have part := Finset.single_le_sum (f := fun w =>
        potential (s.threadCounters w) (s.loop.worker w).pc) (fun _ _ => Nat.zero_le _)
        (Finset.mem_univ w)
      have := Nat.lt_of_lt_of_le less (Nat.le_trans part bound)
      omega
  | succ steps ih =>
      by_cases done : AllLeft s
      · exact ⟨[], s, rfl, done⟩
      · obtain ⟨w, here⟩ := not_forall.mp done
        obtain ⟨pc, counter, executed, goes, shared, less⟩ := own_step positive working w here
        have shorter := remaining_moved s w pc counter executed less
        obtain ⟨schedule, t, reached, left⟩ := ih (moved s w pc counter executed)
          (working_moved working w pc counter executed shared) (by omega)
        refine ⟨ownAction s w :: schedule, t, ?_, left⟩
        rw [run, goes]
        exact reached

end Work

/-! From the options to the number of events. -/
section Total

theorem memory_init_counters (opts : MemoryOptions) (threads : Nat) (alloc : Allocations)
    (mem : MemoryState) (accepted : memoryInit opts threads alloc = .ok mem) :
    mem.totalSize = toSigned opts.totalSize ∧ mem.threadCounters = List.replicate threads
      (((mem.totalSize.tdiv mem.blockSize.bytes).tdiv threads) % 2 ^ 64).toNat := by
  unfold memoryInit at accepted
  cases checked : checkBlockSize opts.blockSize with
  | none => simp [checked] at accepted
  | some block =>
      simp only [checked] at accepted
      obtain ⟨scope, _, accepted⟩ := bind_ok _ _ mem accepted
      split at accepted
      · cases accepted
      · obtain ⟨oper, _, accepted⟩ := bind_ok _ _ mem accepted
        obtain ⟨accessRnd, _, accepted⟩ := bind_ok _ _ mem accepted
        obtain ⟨buffers, _, accepted⟩ := bind_ok _ _ mem accepted
        obtain rfl := Except.ok.inj accepted
        exact ⟨rfl, rfl⟩

theorem to_signed_lt (value : Nat) : toSigned value < 2 ^ 63 := by
  unfold toSigned
  split <;> omega

/-- The two divisions of `memory_init`. -/
def share (mem : MemoryState) (threads : Nat) : Nat :=
  mem.totalSize.toNat / mem.blockSize.bytes / threads

theorem start_working {threads : Nat} (opts : MemoryOptions) (alloc : Allocations)
    (mem : MemoryState) (accepted : memoryInit opts threads alloc = .ok mem)
    (positive : 0 < mem.totalSize) :
    Working (share mem threads) (start mem : State threads) := by
  obtain ⟨total, counters⟩ := memory_init_counters opts threads alloc mem accepted
  refine ⟨rfl, rfl, fun _ => rfl, fun w => Or.inl ⟨rfl, ?_⟩⟩
  have small := to_signed_lt opts.totalSize
  have whole : ((mem.totalSize.toNat : Nat) : Int) = mem.totalSize :=
    Int.toNat_of_nonneg (Int.le_of_lt positive)
  have divided : (mem.totalSize.tdiv mem.blockSize.bytes).tdiv threads = share mem threads := by
    rw [← whole, ← Int.ofNat_tdiv, ← Int.ofNat_tdiv]
    rfl
  have fits : share mem threads < 2 ^ 64 := by
    have first := Nat.div_le_self mem.totalSize.toNat mem.blockSize.bytes
    have second := Nat.div_le_self (mem.totalSize.toNat / mem.blockSize.bytes) threads
    unfold share
    omega
  have counter : mem.threadCounters.getD w 0 = share mem threads := by
    rw [counters, List.getD_replicate _ w.isLt, divided]
    omega
  change 0 + (UInt64.ofNat (mem.threadCounters.getD w 0)).toNat = share mem threads
  rw [counter, UInt64.toNat_ofNat_of_lt' fits, Nat.zero_add]

/-- The threads together execute one event for every block of the total size exactly
when they can share the blocks out evenly. -/
theorem total_events_iff (opts : MemoryOptions) (alloc : Allocations) (mem : MemoryState)
    (threads : Nat) (accepted : memoryInit opts threads alloc = .ok mem)
    (positive : 0 < mem.totalSize) :
    (∀ schedule (t : State threads),
        run (step mem.totalSize) (start mem) schedule = some t → AllLeft t →
          ∑ w, t.executed w = mem.totalSize.toNat / mem.blockSize.bytes) ↔
      threads ∣ mem.totalSize.toNat / mem.blockSize.bytes := by
  have begun := start_working opts alloc mem accepted positive
  constructor
  · intro all
    obtain ⟨schedule, t, reached, left⟩ := workers_leave positive _ _ begun (Nat.le_refl _)
    have total := left_total (run_working positive _ t schedule begun reached) left
    rw [all schedule t reached left] at total
    exact ⟨_, total⟩
  · intro even schedule t reached left
    rw [left_total (run_working positive _ t schedule begun reached) left]
    exact Nat.mul_div_cancel' even

/-- Blocks of 1K, and three of them in total. -/
def threeBlocks : MemoryOptions :=
  { blockSize := 1024, blockSizeText := "1K", totalSize := 3072, scope := "global"
    pteMeta := false, pteMetaType := 0, oper := "write", accessMode := "seq" }

def oneBuffer : Allocations := { block := fun _ => some 4096, threadArrays := true }

theorem total_events_three_threads :
    ∃ mem, memoryInit threeBlocks 3 oneBuffer = .ok mem ∧
      ((∀ schedule (t : State 3), run (step mem.totalSize) (start mem) schedule = some t →
          AllLeft t → ∑ w, t.executed w = mem.totalSize.toNat / mem.blockSize.bytes) ↔
        3 ∣ mem.totalSize.toNat / mem.blockSize.bytes) :=
  ⟨_, rfl, total_events_iff threeBlocks oneBuffer _ 3 rfl (by decide)⟩

/-- One thread runs its event and takes the empty request, then the other does. -/
def twoThreads : List (Action 2) :=
  let event (w : Fin 2) : List (Action 2) := List.replicate 4 (.worker w) ++ [.event w]
  event 0 ++ event 0 ++ [.worker 0] ++ event 1 ++ event 1 ++ [.worker 1]

theorem third_block_left :
    ∃ mem t, memoryInit threeBlocks 2 oneBuffer = .ok mem ∧
      run (step mem.totalSize) (start mem) twoThreads = some t ∧ AllLeft t ∧
      mem.totalSize.toNat / mem.blockSize.bytes = 3 ∧ t.executed 0 + t.executed 1 = 2 := by
  refine ⟨_, _, rfl, rfl, fun w => ?_, by decide, rfl⟩
  match w with
  | 0 => rfl
  | 1 => rfl

end Total
end PteSysbench.MemoryTotal
