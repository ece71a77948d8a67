import PteSysbench.SbBarrier
import Mathlib.Data.Fintype.Option
import Mathlib.Data.Fintype.Sum

/-!
How a run starts in `sysbench.c`: the main thread of `run_test`, the workers and the
event generator of limited-rate mode meet at `worker_barrier`, whose callback
starts the timers. A thread that could not be created is not here: main
returns without its call then, and the barrier never opens.
-/

namespace PteSysbench.StartupProtocol

open ActionSystem SbBarrier

/-- The per-thread arrays have `threads + 1` elements, counted in an unsigned int. -/
structure StartGlobals where
  threads : Nat
  txRate : Nat
  slots : threads + 1 < 2 ^ 32

def eventgens (cfg : StartGlobals) : Nat := if 0 < cfg.txRate then 1 else 0

/-- `barrier_threads` of `worker_barrier`. -/
def barrierThreads (cfg : StartGlobals) : UInt32 :=
  1 + UInt32.ofNat cfg.threads + UInt32.ofNat (eventgens cfg)

/-- Main is `none`. -/
abbrev Party (cfg : StartGlobals) := Option (Fin cfg.threads ⊕ Fin (eventgens cfg))

@[match_pattern]
abbrev worker {cfg : StartGlobals} (i : Fin cfg.threads) : Party cfg := some (.inl i)

/-- What a party does outside the barrier. `ready` says that it looks at what the barrier
returns, `running` that it has gone on: a worker to its loop, main behind its test. -/
inductive Phase where
  | preparing
  | raising
  | atBarrier (ready : Bool)
  | running
  | returned
  deriving DecidableEq, Repr

/-- `failed` is history: the `thread_init` of the worker returned non-zero. -/
structure State (cfg : StartGlobals) where
  barrier : SbBarrier.State (Party cfg)
  error : Bool
  execTimerStarted : Bool
  threadsRunning : Nat
  phase : Party cfg → Phase
  failed : Party cfg → Bool

/-- `prepared` ends what a party does before its call of the barrier: `thread_init` of a
worker, the mutex and condition variable of the event generator. -/
inductive Action (cfg : StartGlobals) where
  | prepared (p : Party cfg) (succeeded : Bool)
  | raise (p : Party cfg)
  | barrier (a : SbBarrier.Action (Party cfg))
  | proceed (p : Party cfg)

variable {cfg : StartGlobals}

def State.goto (s : State cfg) (p : Party cfg) (phase : Phase) : State cfg :=
  { s with phase := Function.update s.phase p phase }

/-- Only a worker reports its failure; the event generator goes on to the barrier. -/
def preparedStep (s : State cfg) (p : Party cfg) (succeeded : Bool) : Option (State cfg) :=
  if s.phase p = .preparing then
    match p, succeeded with
    | worker _, false =>
        some { s.goto p .raising with failed := Function.update s.failed p true }
    | none, false => none
    | _, succeeded => some (s.goto p (.atBarrier succeeded))
  else none

def startTimers (s : State cfg) : State cfg :=
  { s with threadsRunning := cfg.threads, execTimerStarted := true }

/-- `threads_started_callback`: true when it returns 0. -/
def threadsStartedCallback (s : State cfg) : Bool × State cfg :=
  if s.error then (false, s) else (true, startTimers s)

/-- May the party take this step of the barrier, and what does it do outside of it. -/
def barrierEffect (s : State cfg) : SbBarrier.Action (Party cfg) → Option (State cfg)
  | .enter p =>
      match s.phase p with
      | .atBarrier _ => if s.barrier.results p = [] then some s else none
      | _ => none
  | .callback _ succeeded =>
      if (threadsStartedCallback s).1 = succeeded then some (threadsStartedCallback s).2 else none
  | _ => some s

def barrierStep (s : State cfg) (a : SbBarrier.Action (Party cfg)) : Option (State cfg) :=
  (barrierEffect s a).bind fun t =>
    (SbBarrier.step s.barrier a).map fun barrier => { t with barrier := barrier }

/-- Behind the barrier. -/
def proceedStep (s : State cfg) (p : Party cfg) : Option (State cfg) :=
  match s.phase p, s.barrier.results p with
  | .atBarrier ready, [res] =>
      some (s.goto p (if ready = true ∧ ¬ res < 0 then .running else .returned))
  | _, _ => none

def step (s : State cfg) : Action cfg → Option (State cfg)
  | .prepared p succeeded => preparedStep s p succeeded
  | .raise p =>
      if s.phase p = .raising then some { s.goto p (.atBarrier false) with error := true } else none
  | .barrier a => barrierStep s a
  | .proceed p => proceedStep s p

/-- Without a barrier nothing starts. -/
def start (cfg : StartGlobals) : Option (State cfg) :=
  (sbBarrierInit (barrierThreads cfg)).map fun barrier =>
    { barrier := SbBarrier.start (Party cfg) barrier, error := false, execTimerStarted := false
      threadsRunning := 0, phase := fun _ => .preparing, failed := fun _ => false }

/-- The party alone, with whoever holds the barrier's mutex, gets behind the barrier. -/
def GetsThrough (s : State cfg) (p : Party cfg) : Prop :=
  ∃ schedule t, schedule.length ≤ 7 ∧
    (∀ a ∈ schedule, a = .proceed p ∨ ∃ v, (v = p ∨ s.barrier.mutex = some v) ∧
      (a = .barrier (.thread v) ∨ ∃ succeeded, a = .barrier (.callback v succeeded))) ∧
    run step s schedule = some t ∧ (t.phase p = .running ∨ t.phase p = .returned)

/-- What the start relies on the barrier for. -/
structure StartsTogether (s : State cfg) : Prop where
  stopped : (∃ i, s.failed (worker i) = true) → (∀ i, s.phase (worker i) ≠ .running) ∧
    s.execTimerStarted = false ∧ ∀ p res, res ∈ s.barrier.results p → res < 0
  ready : ∀ i, s.phase (worker i) = .running →
    s.execTimerStarted = true ∧ ∀ j, s.phase (worker j) ≠ .preparing
  unblocked : (∀ p, 0 < s.barrier.arrivals p) →
    ∀ p ready, s.phase p = .atBarrier ready → GetsThrough s p

/-! What every step keeps. -/
section Invariant
variable {s t : State cfg}

/-- A party calls the barrier once, when it is prepared, and goes on from its result. -/
def Settled (pc : Pc) (results : List Int) (failed : Bool) : Phase → Prop
  | .preparing => pc = .outside ∧ results = [] ∧ failed = false
  | .raising => pc = .outside ∧ results = [] ∧ failed = true
  | .atBarrier _ => results.length ≤ 1 ∧ (pc ≠ .outside → results = [])
  | .running => pc = .outside ∧ ∃ res, results = [res] ∧ ¬ res < 0
  | .returned => pc = .outside ∧ results.length = 1

structure Tracked (s : State cfg) : Prop where
  consistent : Consistent s.barrier
  settled : ∀ p, Settled (s.barrier.pc p) (s.barrier.results p) (s.failed p) (s.phase p)
  raised : s.error = true ↔ ∃ p, s.failed p = true ∧ s.phase p ≠ .raising
  timers : s.execTimerStarted = s.barrier.callbacks.any Callback.succeeded
  agreed : ∀ ran ∈ s.barrier.callbacks, ran.succeeded = true ↔ ∀ p, s.failed p = false

/-- Before its call of the barrier a party holds up the first round. -/
theorem early_holds_up (tracked : Tracked s) (p : Party cfg)
    (early : s.phase p = .preparing ∨ s.phase p = .raising) : s.barrier.arrivals p = 0 := by
  obtain ⟨out, none_⟩ : s.barrier.pc p = .outside ∧ s.barrier.results p = [] := by
    have settled := tracked.settled p
    rcases early with place | place <;> rw [place] at settled <;> exact ⟨settled.1, settled.2.1⟩
  have placed := tracked.consistent.placed p
  rw [out] at placed
  have counted : s.barrier.arrivals p = s.barrier.rounds := placed.1
  have returned : (s.barrier.results p).length = s.barrier.rounds := placed.2
  rw [none_, List.length_nil] at returned
  rw [counted, ← returned]

theorem callbacks_bound (tracked : Tracked s) :
    s.barrier.callbacks.length ≤ s.barrier.rounds := by
  by_cases nobody : ∀ v, s.barrier.pc v ≠ .callback
  · exact (tracked.consistent.ran nobody).le
  · obtain ⟨v, place⟩ := not_forall_not.mp nobody
    have running := tracked.consistent.running v place
    omega

theorem early_no_callback (tracked : Tracked s) (p : Party cfg)
    (early : s.phase p = .preparing ∨ s.phase p = .raising) : s.barrier.callbacks = [] := by
  apply List.eq_nil_of_length_eq_zero
  have waits := early_holds_up tracked p early
  have range := arrivals_range tracked.consistent p
  have bound := callbacks_bound tracked
  omega

/-- One party moves, outside the barrier. -/
theorem party_tracked (tracked : Tracked s) (p : Party cfg) (barrier : t.barrier = s.barrier)
    (timer : t.execTimerStarted = s.execTimerStarted)
    (others : ∀ q, q ≠ p → t.phase q = s.phase q ∧ t.failed q = s.failed q)
    (own : Settled (s.barrier.pc p) (s.barrier.results p) (t.failed p) (t.phase p))
    (raised : t.error = s.error ∧
        (t.failed p = true ∧ t.phase p ≠ .raising ↔ s.failed p = true ∧ s.phase p ≠ .raising) ∨
      t.error = true ∧ t.failed p = true ∧ t.phase p ≠ .raising)
    (fixed : t.failed p = s.failed p ∨ s.barrier.callbacks = []) : Tracked t := by
  constructor
  case consistent => exact barrier ▸ tracked.consistent
  case settled =>
    intro q
    rw [barrier]
    by_cases same : q = p
    · exact same ▸ own
    · rw [(others q same).1, (others q same).2]
      exact tracked.settled q
  case raised =>
    rcases raised with ⟨error, kept⟩ | ⟨error, mark⟩
    · rw [error, tracked.raised]
      refine exists_congr fun q => ?_
      by_cases same : q = p
      · rw [same, kept]
      · rw [(others q same).1, (others q same).2]
    · exact iff_of_true error ⟨p, mark⟩
  case timers => rw [barrier, timer, tracked.timers]
  case agreed =>
    rw [barrier]
    intro ran member
    -- once a callback ran, this step changes no mark of failure
    rcases fixed with same | none_
    · rw [tracked.agreed ran member]
      refine forall_congr' fun q => ?_
      by_cases here : q = p
      · rw [here, same]
      · rw [(others q here).2]
    · rw [none_] at member
      cases member

theorem goto_others (s : State cfg) (p : Party cfg) (phase : Phase) (q : Party cfg)
    (other : q ≠ p) :
    (s.goto p phase).phase q = s.phase q ∧ (s.goto p phase).failed q = s.failed q :=
  ⟨Function.update_of_ne other _ _, rfl⟩

theorem prepared_tracked (tracked : Tracked s) (p : Party cfg) (succeeded : Bool)
    (taken : preparedStep s p succeeded = some t) : Tracked t := by
  obtain ⟨place, taken⟩ := Option.ite_none_right_eq_some.mp taken
  have settled := tracked.settled p
  rw [place] at settled
  obtain ⟨out, none_, fresh⟩ := settled
  have arrives : Tracked (s.goto p (.atBarrier succeeded)) := by
    apply party_tracked tracked p
    · rfl
    · rfl
    · exact goto_others s p _
    · simp [State.goto, Settled, none_]
    · simp [State.goto, fresh]
    · exact Or.inl rfl
  have raises : Tracked { s.goto p .raising with failed := Function.update s.failed p true } := by
    apply party_tracked tracked p
    · rfl
    · rfl
    · intro q other
      exact ⟨Function.update_of_ne other _ _, Function.update_of_ne other _ _⟩
    · simp [State.goto, Settled, none_, out]
    · simp [State.goto, fresh]
    · exact Or.inr (early_no_callback tracked p (Or.inl place))
  match p, succeeded with
  | worker _, false => exact Option.some.inj taken ▸ raises
  | none, false => cases taken
  | none, true => exact Option.some.inj taken ▸ arrives
  | worker _, true => exact Option.some.inj taken ▸ arrives
  | some (.inr _), succeeded => exact Option.some.inj taken ▸ arrives

theorem raise_tracked (tracked : Tracked s) (p : Party cfg) (place : s.phase p = .raising) :
    Tracked { s.goto p (.atBarrier false) with error := true } := by
  have settled := tracked.settled p
  rw [place] at settled
  apply party_tracked tracked p
  · rfl
  · rfl
  · exact goto_others s p _
  · simp [State.goto, Settled, settled.2.1]
  · simp [State.goto, settled.2.2]
  · exact Or.inl rfl

theorem proceed_tracked (tracked : Tracked s) (p : Party cfg)
    (taken : proceedStep s p = some t) : Tracked t := by
  unfold proceedStep at taken
  split at taken
  · rename_i ready res place result
    have settled := tracked.settled p
    rw [place, result] at settled
    have out : s.barrier.pc p = .outside := by
      by_contra inside
      cases settled.2 inside
    obtain rfl := Option.some.inj taken
    apply party_tracked tracked p
    · rfl
    · rfl
    · exact goto_others s p _
    · simp only [State.goto, Function.update_self, result]
      split
      · rename_i onward
        exact ⟨out, res, rfl, onward.2⟩
      · exact ⟨out, rfl⟩
    · refine Or.inl ⟨rfl, ?_⟩
      simp only [State.goto, Function.update_self, place]
      split <;> simp
    · exact Or.inl rfl
  · cases taken

/-- What a party does on its way through the barrier concerns the timers only. -/
theorem barrier_effect_kept {a : SbBarrier.Action (Party cfg)}
    (allowed : barrierEffect s a = some t) :
    t.phase = s.phase ∧ t.failed = s.failed ∧ t.error = s.error := by
  cases a with
  | enter p =>
      cases place : s.phase p <;> simp only [barrierEffect, place, reduceCtorEq] at allowed
      case atBarrier ready =>
        obtain ⟨_, allowed⟩ := Option.ite_none_right_eq_some.mp allowed
        exact Option.some.inj allowed ▸ ⟨rfl, rfl, rfl⟩
  | callback p succeeded =>
      obtain ⟨_, allowed⟩ := Option.ite_none_right_eq_some.mp allowed
      obtain rfl := Option.some.inj allowed
      unfold threadsStartedCallback
      split <;> exact ⟨rfl, rfl, rfl⟩
  | thread p | spuriousWakeup p => exact Option.some.inj allowed ▸ ⟨rfl, rfl, rfl⟩

theorem enters_once {p : Party cfg} (allowed : barrierEffect s (.enter p) = some t) :
    (∃ ready, s.phase p = .atBarrier ready) ∧ s.barrier.results p = [] := by
  cases place : s.phase p <;> simp only [barrierEffect, place, reduceCtorEq] at allowed
  case atBarrier ready => exact ⟨⟨ready, rfl⟩, (Option.ite_none_right_eq_some.mp allowed).1⟩

theorem callback_reports {p : Party cfg} {succeeded : Bool}
    (allowed : barrierEffect s (.callback p succeeded) = some t) :
    succeeded = !s.error ∧ t.execTimerStarted = (s.execTimerStarted || succeeded) := by
  obtain ⟨reported, allowed⟩ := Option.ite_none_right_eq_some.mp allowed
  obtain rfl := Option.some.inj allowed
  rw [← reported]
  unfold threadsStartedCallback
  cases s.error <;> simp [startTimers]

theorem effect_timer {a : SbBarrier.Action (Party cfg)} (allowed : barrierEffect s a = some t)
    (other : ∀ w succeeded, a ≠ .callback w succeeded) :
    t.execTimerStarted = s.execTimerStarted := by
  cases a with
  | enter p =>
      cases place : s.phase p <;> simp only [barrierEffect, place, reduceCtorEq] at allowed
      case atBarrier ready =>
        obtain ⟨_, allowed⟩ := Option.ite_none_right_eq_some.mp allowed
        exact Option.some.inj allowed ▸ rfl
  | callback p succeeded => exact absurd rfl (other p succeeded)
  | thread p | spuriousWakeup p => exact Option.some.inj allowed ▸ rfl

/-- A step in the barrier, seen by each party. -/
theorem barrier_settled {a : SbBarrier.Action (Party cfg)} {next : SbBarrier.State (Party cfg)}
    (tracked : Tracked s) (allowed : barrierEffect s a = some t)
    (moved : SbBarrier.step s.barrier a = some next) (p : Party cfg) :
    Settled (next.pc p) (next.results p) (s.failed p) (s.phase p) := by
  have settled := tracked.settled p
  rcases step_results moved p with ⟨same, stays⟩ | ⟨res, returned, inside, out⟩
  · have kept (before : s.barrier.pc p = .outside) (busy : ∀ ready, s.phase p ≠ .atBarrier ready) :
        next.pc p = .outside := by
      apply stays before
      rintro rfl
      obtain ⟨ready, place⟩ := (enters_once allowed).1
      exact busy ready place
    rw [same]
    cases place : s.phase p <;> rw [place] at settled
    case atBarrier ready =>
      refine ⟨settled.1, fun now => ?_⟩
      by_cases before : s.barrier.pc p = .outside
      · by_cases entering : a = .enter p
        · exact (enters_once (entering ▸ allowed)).2
        · exact absurd (stays before entering) now
      · exact settled.2 before
    all_goals exact ⟨kept settled.1 (by simp [place]), settled.2⟩
  · cases place : s.phase p <;> rw [place] at settled
    case atBarrier ready =>
      have first := settled.2 inside
      rw [returned, first]
      exact ⟨by simp, fun now => absurd out now⟩
    all_goals exact absurd settled.1 inside

theorem barrier_tracked (tracked : Tracked s) (a : SbBarrier.Action (Party cfg))
    (taken : barrierStep s a = some t) : Tracked t := by
  obtain ⟨u, allowed, taken⟩ := Option.bind_eq_some_iff.mp taken
  obtain ⟨next, moved, rfl⟩ := Option.map_eq_some_iff.mp taken
  obtain ⟨phase, failed, error⟩ := barrier_effect_kept allowed
  constructor
  case consistent => exact step_consistent s.barrier a next tracked.consistent moved
  case settled =>
    intro p
    simp only [phase, failed]
    exact barrier_settled tracked allowed moved p
  case raised =>
    simp only [phase, failed, error]
    exact tracked.raised
  case timers =>
    rcases step_callbacks moved with ⟨other, same⟩ | ⟨w, succeeded, rfl, _, ran⟩
    · simp only [same, effect_timer allowed other, tracked.timers]
    · simp only [ran, (callback_reports allowed).2, tracked.timers, List.any_append,
        List.any_cons, List.any_nil, Bool.or_false]
  case agreed =>
    simp only [failed]
    rcases step_callbacks moved with ⟨_, same⟩ | ⟨w, succeeded, rfl, place, ran⟩
    · rw [same]
      exact tracked.agreed
    · intro ran' member
      rw [ran] at member
      rcases List.mem_append.mp member with earlier | last
      · exact tracked.agreed ran' earlier
      · rw [List.mem_singleton] at last
        rw [last, (callback_reports allowed).1, Bool.not_eq_true', ← Bool.not_eq_true,
          tracked.raised]
        -- everybody has called the barrier, so that no failure is still to be reported
        have complete := tracked.consistent.running w place
        have reported (p : Party cfg) : s.phase p ≠ .raising := by
          intro late
          have waits := early_holds_up tracked p (Or.inr late)
          have range := arrivals_range tracked.consistent p
          omega
        constructor
        · intro none_ p
          by_contra mark
          exact none_ ⟨p, Bool.not_eq_false _ ▸ mark, reported p⟩
        · rintro none_ ⟨p, mark, _⟩
          rw [none_ p] at mark
          cases mark

theorem step_tracked (s : State cfg) (a : Action cfg) (t : State cfg) (tracked : Tracked s)
    (taken : step s a = some t) : Tracked t := by
  cases a with
  | prepared p succeeded => exact prepared_tracked tracked p succeeded taken
  | raise p =>
      obtain ⟨place, taken⟩ := Option.ite_none_right_eq_some.mp taken
      exact Option.some.inj taken ▸ raise_tracked tracked p place
  | barrier a => exact barrier_tracked tracked a taken
  | proceed p => exact proceed_tracked tracked p taken

/-- Unless `barrier_threads` has wrapped around to 0, it is the number of parties. -/
theorem barrier_threads_count (cfg : StartGlobals) (some_ : barrierThreads cfg ≠ 0) :
    Fintype.card (Party cfg) = (barrierThreads cfg).toNat := by
  have slots := cfg.slots
  have one : eventgens cfg ≤ 1 := by
    unfold eventgens
    split <;> omega
  have total : (barrierThreads cfg).toNat = (1 + cfg.threads + eventgens cfg) % 2 ^ 32 := by
    simp only [barrierThreads, UInt32.toNat_add, UInt32.toNat_ofNat', UInt32.toNat_one]
    omega
  have wrapped : (barrierThreads cfg).toNat ≠ 0 := fun none_ => some_ (UInt32.toNat_inj.mp none_)
  have parties : Fintype.card (Party cfg) = cfg.threads + eventgens cfg + 1 := by
    simp [Party]
  omega

theorem start_tracked (started : start cfg = some s) : Tracked s := by
  obtain ⟨barrier, made, rfl⟩ := Option.map_eq_some_iff.mp started
  have some_ := (Option.ite_none_left_eq_some.mp made).1
  constructor
  case consistent =>
    exact start_consistent (barrierThreads cfg) barrier (barrier_threads_count cfg some_) made
  all_goals simp [SbBarrier.start, Settled]

end Invariant

/-! From the start to the run loops. -/
section Start
variable {s t : State cfg}

/-- A party of the run is refused no step of the barrier, if it is past its entry and
agrees with the callback. -/
theorem barrier_run_lifts (schedule : List (SbBarrier.Action (Party cfg)))
    (next : SbBarrier.State (Party cfg)) (who : Party cfg → Prop)
    (allowed : ∀ a ∈ schedule, ∃ v, who v ∧ (a = .thread v ∨ a = .callback v (!s.error)))
    (reached : run SbBarrier.step s.barrier schedule = some next) :
    ∃ t, run step s (schedule.map .barrier) = some t ∧ t.barrier = next ∧ t.phase = s.phase := by
  induction schedule generalizing s with
  | nil =>
      cases reached
      exact ⟨s, rfl, rfl, rfl⟩
  | cons a rest ih =>
      obtain ⟨barrier, moved, reached⟩ := Option.bind_eq_some_iff.mp reached
      obtain ⟨u, effect⟩ : ∃ u, barrierEffect s a = some u := by
        obtain ⟨v, _, rfl | rfl⟩ := allowed a List.mem_cons_self
        · exact ⟨s, rfl⟩
        · unfold barrierEffect threadsStartedCallback
          cases s.error <;> simp
      obtain ⟨phase, _, error⟩ := barrier_effect_kept effect
      have taken : step s (.barrier a) = some { u with barrier := barrier } := by
        simp only [step, barrierStep, effect, moved, Option.bind_some, Option.map_some]
      obtain ⟨t, later, same, kept⟩ := ih (s := { u with barrier := barrier })
        (fun b member => error.symm ▸ allowed b (List.mem_cons_of_mem a member)) reached
      refine ⟨t, ?_, same, kept.trans phase⟩
      rw [List.map_cons, run, taken]
      exact later

theorem proceed_past (p : Party cfg) (ready : Bool) (res : Int)
    (place : s.phase p = .atBarrier ready) (result : s.barrier.results p = [res]) :
    ∃ t, step s (.proceed p) = some t ∧ (t.phase p = .running ∨ t.phase p = .returned) := by
  refine ⟨s.goto p (if ready = true ∧ ¬ res < 0 then .running else .returned), ?_, ?_⟩
  · simp only [step, proceedStep, place, result]
  · simp only [State.goto, Function.update_self]
    split
    · exact Or.inl rfl
    · exact Or.inr rfl

theorem tracked_unblocked (tracked : Tracked s) (arrived : ∀ p, 0 < s.barrier.arrivals p)
    (p : Party cfg) (ready : Bool) (place : s.phase p = .atBarrier ready) : GetsThrough s p := by
  have settled := tracked.settled p
  rw [place] at settled
  cases results : s.barrier.results p with
  | cons res more =>
      have only : more = [] := by
        have short : (res :: more).length ≤ 1 := results ▸ settled.1
        exact List.eq_nil_of_length_eq_zero (by simpa using short)
      obtain ⟨t, taken, past⟩ := proceed_past p ready res place (by rw [results, only])
      refine ⟨[.proceed p], t, by simp, ?_, by rw [run, taken]; rfl, past⟩
      intro a member
      exact Or.inl (List.mem_singleton.mp member)
  | nil =>
      have returns := ((consistent_rounds tracked.consistent).unblocked p
        (by simpa [results] using arrived p) (by simpa [results] using arrived)).2 (!s.error)
      obtain ⟨schedule, next, short, allowed, reached, returned⟩ := returns
      obtain ⟨u, passed, same, phase⟩ := barrier_run_lifts schedule next _ allowed reached
      obtain ⟨res, result⟩ : ∃ res, u.barrier.results p = [res] := by
        rw [same]
        exact List.length_eq_one_iff.mp (by rw [returned, results]; rfl)
      obtain ⟨t, taken, past⟩ := proceed_past p ready res (by rw [phase, place]) result
      refine ⟨schedule.map .barrier ++ [.proceed p], t, by simp; omega, ?_, ?_, past⟩
      · intro a member
        rcases List.mem_append.mp member with inside | last
        · obtain ⟨b, listed, rfl⟩ := List.mem_map.mp inside
          obtain ⟨v, who, kind⟩ := allowed b listed
          refine Or.inr ⟨v, who, ?_⟩
          rcases kind with rfl | rfl
          · exact Or.inl rfl
          · exact Or.inr ⟨_, rfl⟩
        · exact Or.inl (List.mem_singleton.mp last)
      · rw [run_append, passed]
        simp only [Option.bind_some, run, taken]

/-- The first round is the only one: its callback decides what everybody is told. -/
theorem first_result (tracked : Tracked s) (p : Party cfg) (res : Int)
    (member : res ∈ s.barrier.results p) :
    ∃ ran ∈ s.barrier.callbacks, ran.succeeded = false ↔ res < 0 := by
  have rounds := consistent_rounds tracked.consistent
  have single : (s.barrier.results p).length ≤ 1 := by
    have settled := tracked.settled p
    cases place : s.phase p <;> rw [place] at settled
    case atBarrier ready => exact settled.1
    case preparing | raising => simp [settled.2.1]
    case running =>
      obtain ⟨_, _, only, _⟩ := settled
      simp [only]
    case returned => exact settled.2.le
  obtain ⟨k, bound, here⟩ := List.getElem_of_mem member
  obtain rfl : k = 0 := by omega
  have ranBound : 0 < s.barrier.callbacks.length := by
    have first := rounds.callbackFirst p
    omega
  have entry := List.getElem?_eq_getElem ranBound
  have result : (s.barrier.results p)[0]? = some res := by
    rw [List.getElem?_eq_getElem bound, here]
  refine ⟨s.barrier.callbacks[0], List.getElem_mem ranBound, ?_⟩
  cases success : s.barrier.callbacks[0].succeeded with
  | false => exact iff_of_true rfl (rounds.failed 0 _ entry rfl success p res result)
  | true =>
      obtain ⟨last, told⟩ := rounds.succeeded 0 _ entry rfl success
      refine iff_of_false Bool.noConfusion ?_
      rw [told p res result]
      split <;> decide

theorem tracked_starts (tracked : Tracked s) : StartsTogether s := by
  have ran (i : Fin cfg.threads) (running : s.phase (worker i) = .running) :
      ∃ ran ∈ s.barrier.callbacks, ran.succeeded = true := by
    have settled := tracked.settled (worker i)
    rw [running] at settled
    obtain ⟨_, res, only, nonneg⟩ := settled
    obtain ⟨ran, member, told⟩ := first_result tracked (worker i) res (by simp [only])
    exact ⟨ran, member, Bool.not_eq_false _ ▸ fun failed => nonneg (told.mp failed)⟩
  constructor
  case stopped =>
    rintro ⟨i, mark⟩
    have unsuccessful : ∀ ran ∈ s.barrier.callbacks, ran.succeeded = false := by
      intro ran member
      by_contra success
      have none_ := (tracked.agreed ran member).mp (by simpa using success) (worker i)
      rw [mark] at none_
      cases none_
    refine ⟨?_, ?_, ?_⟩
    · intro j running
      obtain ⟨here, member, success⟩ := ran j running
      rw [unsuccessful here member] at success
      cases success
    · rw [tracked.timers, List.any_eq_false]
      intro here member
      simp [unsuccessful here member]
    · intro p res member
      obtain ⟨here, listed, told⟩ := first_result tracked p res member
      exact told.mp (unsuccessful here listed)
  case ready =>
    intro i running
    obtain ⟨here, member, success⟩ := ran i running
    refine ⟨?_, fun j early => ?_⟩
    · rw [tracked.timers]
      exact List.any_eq_true.mpr ⟨here, member, success⟩
    · rw [early_no_callback tracked (worker j) (Or.inl early)] at member
      cases member
  case unblocked => exact tracked_unblocked tracked

theorem starts_together (cfg : StartGlobals) (begin_ : State cfg)
    (started : start cfg = some begin_)
    (schedule : List (Action cfg)) : Always step StartsTogether begin_ schedule :=
  always_mono (fun _ tracked => tracked_starts tracked) _ schedule
    (invariant_keeps step_tracked _ schedule (start_tracked started))

/-- Main and two workers, one of which fails to initialise. -/
def twoWorkers : StartGlobals := { threads := 2, txRate := 0, slots := by decide }

/-- The two workers sleep at the barrier, main is the last to come. -/
def oneFails : List (Action twoWorkers) :=
  let v : Party twoWorkers := worker ⟨0, Nat.zero_lt_two⟩
  let w : Party twoWorkers := worker ⟨1, Nat.one_lt_two⟩
  let asleep (p : Party twoWorkers) : List (Action twoWorkers) :=
    .barrier (.enter p) :: List.replicate 3 (.barrier (.thread p))
  let awake (p : Party twoWorkers) : List (Action twoWorkers) :=
    List.replicate 3 (.barrier (.thread p)) ++ [.proceed p]
  [.prepared v true, .prepared w false, .raise w, .prepared none true] ++ asleep v ++ asleep w ++
    [.barrier (.enter none), .barrier (.thread none), .barrier (.thread none),
      .barrier (.callback none false), .barrier (.thread none), .proceed none] ++
    awake v ++ awake w

theorem starts_together_one_fails : ∃ begin_, start twoWorkers = some begin_ ∧
    Always step StartsTogether begin_ oneFails ∧
    (run step begin_ oneFails).map (fun s => (s.phase none, s.phase (worker ⟨0, Nat.zero_lt_two⟩),
      s.phase (worker ⟨1, Nat.one_lt_two⟩), s.execTimerStarted)) =
      some (.returned, .returned, .returned, false) :=
  ⟨_, rfl, starts_together twoWorkers _ rfl oneFails, by decide +kernel⟩

end Start
end PteSysbench.StartupProtocol
