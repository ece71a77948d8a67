import PteSysbench.EventLoop

/-!
Wake-ups of limited-rate mode. A worker decides to wait from a queue and a clock
it looked at before it took the mutex, and the generator signals without the
mutex, so what is sent in between reaches nobody.
-/

namespace PteSysbench.QueueWakeups

open ActionSystem EventLoop

variable {n : Nat} {cfg : Globals} {s t : State n} {w : Fin n}

/-- The generator will signal or broadcast before it looks at the clock again. -/
def WakeupPending (s : State n) : Prop :=
  s.generator = .full ∨ s.generator = .signal ∨ s.generator = .broadcast

/-- Without this worker, the queue is empty or someone will look at it. -/
def Covered (s : State n) (w : Fin n) : Prop :=
  s.queue = [] ∨ WakeupPending s ∨ ∃ v, v ≠ w ∧ (s.worker v).pc.awake = true

theorem top_not_pending (place : s.generator = .top) : ¬ WakeupPending s := by
  simp [WakeupPending, place]

/-- No worker sleeps after the generator's end, and none sleeps beside a non-empty
queue without a wake-up pending or another worker awake. -/
def Attended (s : State n) : Prop :=
  ∀ w, (s.worker w).pc = .asleep → s.generator ≠ .done ∧ Covered s w

/-- A worker starts its wait only if the broadcast did not pass it on its way and,
where a signal did, the queue is covered without it; it leaves its loop only if
nobody sleeps or the queue is covered without it. -/
def Heeded (s : State n) : Action n → Prop
  | .worker w =>
      ((s.worker w).pc = .wait →
        (s.worker w).missedBroadcast = false ∧
          ((s.worker w).missedSignal = true → Covered s w)) ∧
      ((s.worker w).pc = .exiting → (∃ v, (s.worker v).pc = .asleep) → Covered s w)
  | _ => True

/-! What a step can do to the worker that takes it. -/
section Moves

structure Move (cfg : Globals) (s : State n) (before after : Worker) : Prop where
  missedBroadcast : after.missedBroadcast = before.missedBroadcast
  attempting : after.pc.attempting = true → before.pc.attempting = true ∨ timeUp cfg s = false
  blocking : after.pc.blocking = true →
    before.pc.blocking = true ∧ after.missedSignal = before.missedSignal ∨ s.queue = []
  locking : after.pc = .lock ∨ after.pc = .wait →
    before.pc = .lock ∨ before.pc = .loopError ∧ s.error = false
  asleep : after.pc = .asleep → before.pc = .wait
  left : after.pc = .left → before.pc = .exiting

theorem worker_step_moves (taken : workerStep cfg s w = some t) :
    Move cfg s (s.worker w) (t.worker w) := by
  cases place : (s.worker w).pc <;> simp only [workerStep, place] at taken
  case asleep | running | left => cases taken
  case lock | relock =>
    obtain ⟨_, taken⟩ := Option.ite_none_right_eq_some.mp taken
    obtain rfl := Option.some.inj taken
    constructor <;> simp [place, WorkerPc.attempting, WorkerPc.blocking]
  case dequeue =>
    cases listed : s.queue with
    | nil =>
        simp only [listed, Option.some.injEq] at taken
        subst taken
        constructor <;> simp [place, listed, WorkerPc.attempting]
    | cons ptr rest =>
        simp only [listed, Option.some.injEq] at taken
        subst taken
        constructor <;> simp [WorkerPc.attempting, WorkerPc.blocking]
  case readTimestamp ptr =>
    cases ptr with
    | none => cases taken
    | some ptr =>
        obtain rfl := Option.some.inj taken
        constructor <;> simp [WorkerPc.attempting, WorkerPc.blocking]
  case checkError | loopError | recheckError =>
    obtain rfl := Option.some.inj taken
    cases raised : s.error <;> constructor <;>
      simp [place, raised, WorkerPc.attempting, WorkerPc.blocking]
  case checkTime | recheckTime =>
    obtain rfl := Option.some.inj taken
    cases up : timeUp cfg s <;> constructor <;>
      simp [up, WorkerPc.attempting, WorkerPc.blocking]
  case loadLimit =>
    obtain rfl := Option.some.inj taken
    by_cases limited : 0 < s.maxEvents <;> by_cases rate : 0 < cfg.txRate <;> constructor <;>
      simp [place, limited, rate, afterLimits, WorkerPc.attempting, WorkerPc.blocking]
  case countEvent limit =>
    obtain rfl := Option.some.inj taken
    by_cases reached : limit ≤ s.nevents <;> by_cases rate : 0 < cfg.txRate <;> constructor <;>
      simp [place, reached, rate, afterLimits, WorkerPc.attempting, WorkerPc.blocking]
  case returned more =>
    obtain rfl := Option.some.inj taken
    cases more <;> cases failed : (s.worker w).rc <;> constructor <;>
      simp [failed, WorkerPc.attempting, WorkerPc.blocking]
  all_goals
    obtain rfl := Option.some.inj taken
    constructor <;> simp [place, WorkerPc.attempting, WorkerPc.blocking]

theorem event_step_moves {outcome : EventOutcome} (taken : eventStep cfg s w outcome = some t) :
    Move cfg s (s.worker w) (t.worker w) := by
  obtain ⟨place, taken⟩ := Option.ite_none_right_eq_some.mp taken
  cases loop : cfg.loop <;> cases outcome <;> simp only [loop, reduceCtorEq] at taken
  all_goals
    obtain rfl := Option.some.inj taken
    constructor <;> simp [place, WorkerPc.attempting, WorkerPc.blocking]

end Moves

/-! What the history of a worker on its way to the wait says, in every run. -/
section History

structure Tracked (cfg : Globals) (s : State n) : Prop where
  signalled : ∀ w, (s.worker w).pc.blocking = true → (s.worker w).missedSignal = false →
    s.queue = [] ∨ s.generator = .signal
  broadcasted : ∀ w, (s.worker w).missedBroadcast = true → s.generator = .done
  ended : s.generator = .broadcast ∨ s.generator = .done → s.error = true ∨ timeUp cfg s = true
  attempting : s.generator = .done → ∀ w, (s.worker w).pc.attempting = true →
    (s.worker w).missedBroadcast = true ∨ s.error = true
  locking : s.generator = .done → ∀ w, (s.worker w).pc = .lock ∨ (s.worker w).pc = .wait →
    (s.worker w).missedBroadcast = true

theorem start_tracked (n maxEvents : Nat) : Tracked cfg (start n maxEvents) := by
  constructor <;> simp [start, Worker.start, WorkerPc.blocking]

/-- A worker's own step keeps the invariant, whichever loop it is in. -/
theorem move_tracked (tracked : Tracked cfg s) (others : OthersUnchanged s t w)
    (move : Move cfg s (s.worker w) (t.worker w)) : Tracked cfg t := by
  have emptied (empty : s.queue = []) : t.queue = [] := by
    rcases others.queue with same | ⟨ptr, popped⟩
    · exact same.trans empty
    · rw [empty] at popped
      cases popped
  have time : timeUp cfg t = timeUp cfg s := by simp only [timeUp, others.clock]
  constructor
  · intro v blocked unsignalled
    rw [others.generator]
    by_cases same : v = w
    · subst same
      rcases move.blocking blocked with ⟨before, kept⟩ | empty
      · exact (tracked.signalled v before (kept ▸ unsignalled)).imp_left emptied
      · exact Or.inl (emptied empty)
    · rw [others.worker v same] at blocked unsignalled
      exact (tracked.signalled v blocked unsignalled).imp_left emptied
  · intro v missed
    rw [others.generator]
    by_cases same : v = w
    · subst same
      exact tracked.broadcasted v (move.missedBroadcast ▸ missed)
    · exact tracked.broadcasted v (others.worker v same ▸ missed)
  · intro finished
    rw [others.generator] at finished
    rw [time]
    exact (tracked.ended finished).imp_left others.error
  · intro finished v trying
    rw [others.generator] at finished
    by_cases same : v = w
    · subst same
      rw [move.missedBroadcast]
      rcases move.attempting trying with before | early
      · exact (tracked.attempting finished v before).imp_right others.error
      · -- past the time check after the end: only an error ended the generator
        rcases tracked.ended (Or.inr finished) with raised | up
        · exact Or.inr (others.error raised)
        · rw [early] at up
          cases up
    · rw [others.worker v same] at trying ⊢
      exact (tracked.attempting finished v trying).imp_right others.error
  · intro finished v held
    rw [others.generator] at finished
    by_cases same : v = w
    · subst same
      rw [move.missedBroadcast]
      rcases move.locking held with before | ⟨before, unraised⟩
      · exact tracked.locking finished v (Or.inl before)
      · have trying : (s.worker v).pc.attempting = true := by rw [before]; rfl
        rcases tracked.attempting finished v trying with missed | raised
        · exact missed
        · rw [unraised] at raised
          cases raised
    · rw [others.worker v same] at held ⊢
      exact tracked.locking finished v held

/-- Steps of the generator before its end: no worker has missed the broadcast yet. -/
theorem live_tracked (tracked : Tracked cfg s) (live : s.generator ≠ .done)
    (further : t.generator ≠ .done)
    (kept : ∀ v, (t.worker v).missedBroadcast = (s.worker v).missedBroadcast)
    (signalled : ∀ v, (t.worker v).pc.blocking = true → (t.worker v).missedSignal = false →
      t.queue = [] ∨ t.generator = .signal)
    (ended : t.generator = .broadcast → t.error = true ∨ timeUp cfg t = true) :
    Tracked cfg t := by
  constructor
  -- the other fields speak of a generator that has ended
  · exact signalled
  · intro v missed
    exact absurd (tracked.broadcasted v (kept v ▸ missed)) live
  · intro finished
    exact ended (finished.resolve_right further)
  · intro finished
    exact absurd finished further
  · intro finished
    exact absurd finished further

theorem broadcast_tracked (tracked : Tracked cfg s) (place : s.generator = .broadcast) :
    Tracked cfg { s with
      worker := fun v => (s.worker v).hearBroadcast
      generator := GeneratorPc.done } := by
  constructor
  · intro v blocked unsignalled
    rcases (s.worker v).hear_broadcast_cases with ⟨_, up⟩ | ⟨_, same, kept, _⟩
    · simp only [up, WorkerPc.blocking] at blocked
      cases blocked
    · refine Or.inl ((tracked.signalled v ?_ ?_).resolve_right (by simp [place]))
      · rwa [← same]
      · rwa [← kept]
  · intro v missed
    rfl
  · intro finished
    exact tracked.ended (Or.inl place)
  · intro finished v trying
    rcases (s.worker v).hear_broadcast_cases with ⟨_, up⟩ | ⟨_, same, _, missed⟩
    · simp only [up, WorkerPc.attempting] at trying
      cases trying
    · exact Or.inl (missed (Or.inl (same ▸ trying)))
  · intro finished v held
    rcases (s.worker v).hear_broadcast_cases with ⟨_, up⟩ | ⟨_, same, _, missed⟩
    · simp [up] at held
    · apply missed (Or.inr _)
      rw [same] at held
      rcases held with held | held <;> simp only [held, WorkerPc.blocking]

theorem generator_tracked (tracked : Tracked cfg s) (taken : generatorStep cfg s = some t) :
    Tracked cfg t := by
  have drained (unsent : s.generator ≠ .signal) (v : Fin n)
      (blocked : (s.worker v).pc.blocking = true)
      (unsignalled : (s.worker v).missedSignal = false) :
      s.queue = [] := (tracked.signalled v blocked unsignalled).resolve_right unsent
  cases place : s.generator <;> simp only [generatorStep, place] at taken
  case signal | done => cases taken
  case top =>
    obtain rfl := Option.some.inj taken
    have quiet := drained (by simp [place])
    cases up : timeUp cfg s
    · exact live_tracked tracked (by simp [place]) (by simp) (fun _ => rfl)
        (fun v blocked unsignalled => Or.inl (quiet v blocked unsignalled)) (by simp)
    · exact live_tracked tracked (by simp [place]) (by simp) (fun _ => rfl)
        (fun v blocked unsignalled => Or.inl (quiet v blocked unsignalled)) (fun _ => Or.inr up)
  case store | full =>
    obtain rfl := Option.some.inj taken
    have quiet := drained (by simp [place])
    exact live_tracked tracked (by simp [place]) (by simp) (fun _ => rfl)
      (fun v blocked unsignalled => Or.inl (quiet v blocked unsignalled)) (by simp)
  case enqueue =>
    have quiet := drained (by simp [place])
    split at taken
    · obtain rfl := Option.some.inj taken
      exact live_tracked tracked (by simp [place]) (by simp) (fun _ => rfl)
        (fun _ _ _ => Or.inr rfl) (by simp)
    · obtain rfl := Option.some.inj taken
      exact live_tracked tracked (by simp [place]) (by simp) (fun _ => rfl)
        (fun v blocked unsignalled => Or.inl (quiet v blocked unsignalled)) (by simp)
  case broadcast =>
    obtain rfl := Option.some.inj taken
    exact broadcast_tracked tracked place

theorem signal_tracked {woken : Fin n → Bool} (tracked : Tracked cfg s)
    (taken : signalStep s woken = some t) : Tracked cfg t := by
  obtain ⟨⟨place, _, _⟩, taken⟩ := Option.ite_none_right_eq_some.mp taken
  obtain rfl := Option.some.inj taken
  apply live_tracked tracked (by simp [place]) (by simp)
  · intro v
    exact Worker.hear_signal_missed_broadcast _ _
  · intro v blocked unsignalled
    -- whoever is on its way to the wait has missed this signal
    rw [Worker.hear_signal_missed _ _ blocked] at unsignalled
    cases unsignalled
  · simp

theorem environment_tracked (tracked : Tracked cfg s) (queue : t.queue = s.queue)
    (generator : t.generator = s.generator) (worker : t.worker = s.worker)
    (error : s.error = true → t.error = true)
    (time : timeUp cfg s = true → timeUp cfg t = true) : Tracked cfg t := by
  constructor
  · rw [queue, generator, worker]
    exact tracked.signalled
  · rw [generator, worker]
    exact tracked.broadcasted
  · rw [generator]
    exact fun finished => (tracked.ended finished).imp error time
  · rw [generator, worker]
    exact fun finished v trying => (tracked.attempting finished v trying).imp_right error
  · rw [generator, worker]
    exact tracked.locking

theorem spurious_wakeup_moves (cfg : Globals) (down : (s.worker w).pc = .asleep) :
    OthersUnchanged s (s.goto w .relock) w ∧
      Move cfg s (s.worker w) ((s.goto w .relock).worker w) := by
  constructor
  · exact set_unchanged _ _ rfl rfl id rfl (Or.inl rfl)
  · constructor <;> simp [down, WorkerPc.attempting, WorkerPc.blocking]

theorem step_tracked {a : Action n} (tracked : Tracked cfg s) (taken : step cfg s a = some t) :
    Tracked cfg t := by
  cases a with
  | tick now =>
      obtain ⟨⟨later, _⟩, taken⟩ := Option.ite_none_right_eq_some.mp taken
      obtain rfl := Option.some.inj taken
      refine environment_tracked tracked rfl rfl rfl id ?_
      simp only [timeUp, Bool.and_eq_true, decide_eq_true_eq]
      exact fun up => ⟨up.1, up.2.trans later⟩
  | raiseError =>
      obtain rfl := Option.some.inj taken
      exact environment_tracked tracked rfl rfl rfl (fun _ => rfl) id
  | endWarmup =>
      obtain rfl := Option.some.inj taken
      exact environment_tracked tracked rfl rfl rfl id id
  | generator => exact generator_tracked tracked taken
  | signal woken => exact signal_tracked tracked taken
  | spuriousWakeup w =>
      obtain ⟨down, taken⟩ := Option.ite_none_right_eq_some.mp taken
      obtain rfl := Option.some.inj taken
      obtain ⟨others, move⟩ := spurious_wakeup_moves cfg down
      exact move_tracked tracked others move
  | worker w =>
      exact move_tracked tracked (worker_step_unchanged taken) (worker_step_moves taken)
  | event w outcome =>
      exact move_tracked tracked (event_step_unchanged taken) (event_step_moves taken)

end History

/-! Who sleeps, and who is left to look at the queue. -/
section Sleepers

theorem covered_after {v : Fin n} (covered : Covered s w) (others : OthersUnchanged s t w)
    (idle : v = w ∨ (s.worker v).pc.awake = false) : Covered t v := by
  rcases covered with empty | pending | ⟨u, other, up⟩
  · rcases others.queue with same | ⟨ptr, popped⟩
    · exact Or.inl (same.trans empty)
    · rw [empty] at popped
      cases popped
  · refine Or.inr (Or.inl ?_)
    simpa only [WakeupPending, others.generator] using pending
  · refine Or.inr (Or.inr ⟨u, ?_, by rwa [others.worker u other]⟩)
    rintro rfl
    rcases idle with rfl | down
    · exact other rfl
    · rw [up] at down
      cases down

/-- A worker may go to sleep or leave its loop where the queue is covered without it. -/
theorem move_attended (attended : Attended s) (others : OthersUnchanged s t w)
    (move : Move cfg s (s.worker w) (t.worker w))
    (waits : (s.worker w).pc = .wait → s.generator ≠ .done ∧ Covered s w)
    (leaves : (s.worker w).pc = .exiting → (∃ v, (s.worker v).pc = .asleep) → Covered s w) :
    Attended t := by
  intro v down
  rw [others.generator]
  by_cases same : v = w
  · subst same
    obtain ⟨live, covered⟩ := waits (move.asleep down)
    exact ⟨live, covered_after covered others (Or.inl rfl)⟩
  · rw [others.worker v same] at down
    refine ⟨(attended v down).1, ?_⟩
    have idle : (s.worker v).pc.awake = false := by rw [down]; rfl
    -- a worker that stays awake covers the sleeper
    cases place : (t.worker w).pc
    case asleep => exact covered_after (waits (move.asleep place)).2 others (Or.inr idle)
    case left => exact covered_after (leaves (move.left place) ⟨v, down⟩) others (Or.inr idle)
    all_goals exact Or.inr (Or.inr ⟨w, Ne.symm same, by rw [place]; rfl⟩)

/-- A worker on its way to the wait that missed nothing waits beside an empty queue,
or before a signal. -/
theorem wait_covered (tracked : Tracked cfg s) (place : (s.worker w).pc = .wait)
    (missedBroadcast : (s.worker w).missedBroadcast = false)
    (missedSignal : (s.worker w).missedSignal = true → Covered s w) :
    s.generator ≠ .done ∧ Covered s w := by
  constructor
  · intro finished
    rw [tracked.locking finished w (Or.inr place)] at missedBroadcast
    cases missedBroadcast
  · cases missed : (s.worker w).missedSignal
    · rcases tracked.signalled w (by rw [place]; rfl) missed with empty | signal
      · exact Or.inl empty
      · exact Or.inr (Or.inl (Or.inr (Or.inl signal)))
    · exact missedSignal missed

theorem environment_attended (attended : Attended s) (worker : t.worker = s.worker)
    (live : t.generator = .done → s.generator = .done)
    (looked : WakeupPending t ∨ t.queue = s.queue ∧ (WakeupPending s → WakeupPending t)) :
    Attended t := by
  intro v down
  rw [worker] at down
  obtain ⟨before, covered⟩ := attended v down
  refine ⟨fun finished => before (live finished), ?_⟩
  rcases looked with pending | ⟨queue, kept⟩
  · exact Or.inr (Or.inl pending)
  · rw [Covered, queue, worker]
    exact covered.imp_right (Or.imp_left kept)

theorem generator_attended (attended : Attended s) (taken : generatorStep cfg s = some t) :
    Attended t := by
  cases place : s.generator <;> simp only [generatorStep, place] at taken
  case signal | done => cases taken
  case top =>
    obtain rfl := Option.some.inj taken
    have unsent : ¬ WakeupPending s := top_not_pending place
    cases up : timeUp cfg s <;>
      exact environment_attended attended rfl (by simp)
        (Or.inr ⟨rfl, fun sent => absurd sent unsent⟩)
  case store =>
    obtain rfl := Option.some.inj taken
    have unsent : ¬ WakeupPending s := by simp [WakeupPending, place]
    exact environment_attended attended rfl (by simp) (Or.inr ⟨rfl, fun sent => absurd sent unsent⟩)
  case full =>
    obtain rfl := Option.some.inj taken
    exact environment_attended attended rfl (by simp) (Or.inl (by simp [WakeupPending]))
  case enqueue =>
    split at taken
    · obtain rfl := Option.some.inj taken
      exact environment_attended attended rfl (by simp) (Or.inl (by simp [WakeupPending]))
    · obtain rfl := Option.some.inj taken
      exact environment_attended attended rfl (by simp) (Or.inl (by simp [WakeupPending]))
  case broadcast =>
    obtain rfl := Option.some.inj taken
    intro v down
    exact absurd down (Worker.hear_broadcast_awake _)

/-- A signal that leaves someone asleep has woken someone else. -/
theorem signal_attended {woken : Fin n → Bool} (taken : signalStep s woken = some t) :
    Attended t := by
  obtain ⟨⟨_, sleepers, someone⟩, taken⟩ := Option.ite_none_right_eq_some.mp taken
  obtain rfl := Option.some.inj taken
  intro v down
  obtain ⟨passed, before⟩ := Worker.hear_signal_asleep _ _ down
  refine ⟨by simp, Or.inr (Or.inr ?_)⟩
  obtain ⟨u, chosen⟩ := someone ⟨v, before⟩
  refine ⟨u, ?_, by simp [Worker.hearSignal, chosen, WorkerPc.awake]⟩
  rintro rfl
  rw [chosen] at passed
  cases passed

theorem step_attended {a : Action n} (tracked : Tracked cfg s) (attended : Attended s)
    (heeded : Heeded s a) (taken : step cfg s a = some t) : Attended t := by
  cases a with
  | tick now =>
      obtain ⟨_, taken⟩ := Option.ite_none_right_eq_some.mp taken
      obtain rfl := Option.some.inj taken
      exact environment_attended attended rfl id (Or.inr ⟨rfl, id⟩)
  | raiseError =>
      obtain rfl := Option.some.inj taken
      exact environment_attended attended rfl id (Or.inr ⟨rfl, id⟩)
  | endWarmup =>
      obtain rfl := Option.some.inj taken
      exact environment_attended attended rfl id (Or.inr ⟨rfl, id⟩)
  | generator => exact generator_attended attended taken
  | signal woken => exact signal_attended taken
  | spuriousWakeup w =>
      obtain ⟨down, taken⟩ := Option.ite_none_right_eq_some.mp taken
      obtain rfl := Option.some.inj taken
      obtain ⟨others, move⟩ := spurious_wakeup_moves cfg down
      exact move_attended attended others move (by simp [down]) (by simp [down])
  | worker w =>
      obtain ⟨waiting, leaving⟩ := heeded
      apply move_attended attended (worker_step_unchanged taken) (worker_step_moves taken)
      · intro place
        obtain ⟨missedBroadcast, missedSignal⟩ := waiting place
        exact wait_covered tracked place missedBroadcast missedSignal
      · exact leaving
  | event w outcome =>
      have running := (Option.ite_none_right_eq_some.mp taken).1
      exact move_attended attended (event_step_unchanged taken) (event_step_moves taken)
        (by simp [running]) (by simp [running])

/-- Whoever covers a sleeper after the worker went to sleep or out of its loop was
there before. -/
theorem covered_before {v : Fin n} (covered : Covered t v) (queue : t.queue = s.queue)
    (generator : t.generator = s.generator) (worker : ∀ u, u ≠ w → t.worker u = s.worker u)
    (idle : (t.worker w).pc.awake = false) : Covered s w := by
  rw [Covered, WakeupPending, queue, generator] at covered
  refine covered.imp_right (Or.imp_right ?_)
  rintro ⟨u, _, up⟩
  have other : u ≠ w := by
    rintro rfl
    rw [up] at idle
    cases idle
  exact ⟨u, other, worker u other ▸ up⟩

theorem step_heeded {a : Action n} (tracked : Tracked cfg s) (taken : step cfg s a = some t)
    (attended : Attended t) : Heeded s a := by
  cases a with
  | worker w =>
      constructor
      · intro place
        simp only [step, workerStep, place, Option.some.injEq] at taken
        subst taken
        obtain ⟨live, covered⟩ := attended w (by simp)
        constructor
        · by_contra missed
          exact live (tracked.broadcasted w (by simpa using missed))
        · intro _
          exact covered_before covered rfl rfl (fun u other => by simp [other])
            (by simp [WorkerPc.awake])
      · rintro place ⟨v, down⟩
        simp only [step, workerStep, place, Option.some.injEq] at taken
        subst taken
        have other : v ≠ w := by
          rintro rfl
          rw [down] at place
          cases place
        exact covered_before (attended v (by simp [other, down])).2 rfl rfl
          (fun u apart => by simp [apart]) (by simp [WorkerPc.awake])
  | _ => trivial

end Sleepers

/-- What every step that heeds the condition keeps. -/
def Kept (cfg : Globals) (s : State n) : Prop :=
  Tracked cfg s ∧ Attended s

theorem wakeups_attended_iff (cfg : Globals) (n maxEvents : Nat) (schedule : List (Action n)) :
    Always (step cfg) Attended (start n maxEvents) schedule ↔
      Guarded (step cfg) Heeded (start n maxEvents) schedule := by
  have safe : ∀ s : State n, Kept cfg s → Attended s := fun _ kept => kept.2
  have preserved : ∀ (s : State n) (a : Action n) (t : State n),
      Kept cfg s → Heeded s a → step cfg s a = some t → Kept cfg t :=
    fun _ _ _ kept heeded taken =>
      ⟨step_tracked kept.1 taken, step_attended kept.1 kept.2 heeded taken⟩
  have needed : ∀ (s : State n) (a : Action n) (t : State n),
      Kept cfg s → step cfg s a = some t → Attended t → Heeded s a :=
    fun _ _ _ kept taken attended => step_heeded kept.1 taken attended
  refine always_iff_guarded safe preserved needed _ schedule ⟨start_tracked n maxEvents, ?_⟩
  intro w down
  cases down

/-! Runs in which the generator's last message is lost. -/
section Lost

def limitedRate : Globals := { loop := .c, txRate := 100, maxEvents := 0, maxTimeNs := 10 ^ 9 }

/-- The only worker up to its wait: both limits passed, nothing in the queue. -/
def upToWait : List (Action 1) := List.replicate 6 (.worker 0)

/-- The second runs out and the generator ends while the worker is about to wait. -/
def broadcastBeforeWait : List (Action 1) :=
  upToWait ++ [.tick (10 ^ 9), .generator, .generator, .worker 0]

/-- An event is queued and signalled while the worker is about to wait. -/
def signalBeforeWait : List (Action 1) :=
  upToWait ++ [.generator, .generator, .generator, .signal fun _ => false, .worker 0]

theorem message_before_wait_lost :
    (∃ t, run (step limitedRate) (start 1 0) broadcastBeforeWait = some t ∧
      (t.worker 0).pc = .asleep ∧ t.generator = .done) ∧
    (∃ t, run (step limitedRate) (start 1 0) signalBeforeWait = some t ∧
      (t.worker 0).pc = .asleep ∧ t.queue ≠ [] ∧ ¬ WakeupPending t ∧
      ∀ v, v ≠ 0 → (t.worker v).pc.awake = false) := by
  constructor
  · exact ⟨_, rfl, rfl, rfl⟩
  · refine ⟨_, rfl, rfl, List.cons_ne_nil _ _, top_not_pending rfl, ?_⟩
    intro v other
    exact absurd (Subsingleton.elim v 0) other

/-- A worker asleep after the generator's end. -/
def Stranded (w : Fin n) (s : State n) : Prop :=
  (s.worker w).pc = .asleep ∧ s.generator = .done

theorem step_stranded {a : Action n} (stranded : Stranded w s) (quiet : a ≠ .spuriousWakeup w)
    (taken : step cfg s a = some t) : Stranded w t := by
  obtain ⟨down, finished⟩ := stranded
  have kept (v : Fin n) (others : OthersUnchanged s t v) (other : w ≠ v) : Stranded w t :=
    ⟨by rw [others.worker w other, down], by rw [others.generator, finished]⟩
  cases a with
  | tick now =>
      obtain ⟨_, taken⟩ := Option.ite_none_right_eq_some.mp taken
      exact Option.some.inj taken ▸ ⟨down, finished⟩
  | raiseError | endWarmup => exact Option.some.inj taken ▸ ⟨down, finished⟩
  | generator => simp [step, generatorStep, finished] at taken
  | signal woken => simp [step, signalStep, finished] at taken
  | spuriousWakeup v =>
      obtain ⟨_, taken⟩ := Option.ite_none_right_eq_some.mp taken
      have other : w ≠ v := by
        rintro rfl
        exact quiet rfl
      obtain rfl := Option.some.inj taken
      exact ⟨by simp [other, down], finished⟩
  | worker v =>
      by_cases same : w = v
      · subst same
        simp [step, workerStep, down] at taken
      · exact kept v (worker_step_unchanged taken) same
  | event v outcome =>
      by_cases same : w = v
      · subst same
        simp [step, eventStep, down] at taken
      · exact kept v (event_step_unchanged taken) same

/-- Nothing but a spurious wake-up ends the wait, and the join of the workers with it. -/
theorem stranded_forever (schedule : List (Action n)) (stranded : Stranded w s)
    (quiet : Action.spuriousWakeup w ∉ schedule) :
    Always (step cfg) (Stranded w) s schedule := by
  have guarded : Guarded (step cfg) (fun _ a => a ≠ .spuriousWakeup w) s schedule := by
    apply guarded_of_free
    rintro a member _ rfl
    exact quiet member
  exact guarded_keeps (fun _ _ _ here other taken => step_stranded here other taken) s schedule
    stranded guarded

end Lost
end PteSysbench.QueueWakeups
