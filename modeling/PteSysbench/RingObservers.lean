import PteSysbench.RingLinearizable
import PteSysbench.EventLoop

/-!
Around the ring: how often a consumer goes round, what the size read beside the others
means, and the event loop that uses the ring as its queue.
-/

namespace PteSysbench.RingObservers

open ActionSystem AtomicObject CkRing RingLinearizable

variable {ts : UInt32} {Consumer Watcher : Type}

/-! An exchange that fails is paid for by one of another consumer that did not. -/
section Progress
variable {s t : State ts Consumer Watcher} {c : Consumer}

/-- What has happened to a consumer is no more than what it saw happen. -/
def Paid (dequeues saw happened : Nat) : ConsumerPc ts → Prop
  | .loadTail consumer | .copy consumer _ =>
      Counts consumer saw ∧ saw ≤ dequeues ∧ happened ≤ saw
  | .idle | .loadHead | .returning _ => happened ≤ dequeues

theorem paid_total {dequeues saw happened : Nat} {pc : ConsumerPc ts}
    (paid : Paid dequeues saw happened pc) : happened ≤ dequeues := by
  cases pc
  case loadTail | copy => exact Nat.le_trans paid.2.2 paid.2.1
  all_goals exact paid

theorem paid_mono {before after saw happened : Nat} {pc : ConsumerPc ts} (more : before ≤ after)
    (paid : Paid before saw happened pc) : Paid after saw happened pc := by
  cases pc
  case loadTail | copy => exact ⟨paid.1, Nat.le_trans paid.2.1 more, paid.2.2⟩
  all_goals exact Nat.le_trans paid more

variable [Fintype Consumer]

structure Balanced (s : State ts Consumer Watcher) : Prop where
  head : Counts s.ring.cHead s.dequeues
  total : ∑ c, s.takes c = s.dequeues
  paid : ∀ c, Paid s.dequeues (s.consumerSaw c) (s.retries c + s.takes c) (s.consumer c)

variable [DecidableEq Consumer]

theorem balanced_moved (balanced : Balanced s) (c : Consumer)
    (head : Counts t.ring.cHead t.dequeues) (total : ∑ c, t.takes c = t.dequeues)
    (more : s.dequeues ≤ t.dequeues)
    (others : ∀ d, d ≠ c → t.consumer d = s.consumer d ∧ t.consumerSaw d = s.consumerSaw d ∧
      t.retries d = s.retries d ∧ t.takes d = s.takes d)
    (own : Paid t.dequeues (t.consumerSaw c) (t.retries c + t.takes c) (t.consumer c)) :
    Balanced t where
  head := head
  total := total
  paid d := by
    by_cases same : d = c
    · rw [same]
      exact own
    · obtain ⟨place, saw, retries, takes⟩ := others d same
      rw [place, saw, retries, takes]
      exact paid_mono more (balanced.paid d)

theorem consumer_balanced (balanced : Balanced s) (taken : consumerStep s c = some t) :
    Balanced t := by
  have paid := balanced.paid c
  have happened := paid_total paid
  cases place : s.consumer c <;> simp only [consumerStep, place, reduceCtorEq] at taken
  case loadHead =>
    cases taken
    refine balanced_moved balanced c balanced.head balanced.total (Nat.le_refl _) ?_ ?_
    · exact fun d other => by simp [State.consume, other]
    · simpa [State.consume, Paid] using ⟨balanced.head, happened⟩
  case loadTail consumer =>
    rw [place] at paid
    split at taken <;> cases taken <;>
      refine balanced_moved balanced c balanced.head balanced.total (Nat.le_refl _)
        (fun d other => by simp [State.consume, other]) ?_
    · simpa [State.consume, Paid] using happened
    · simpa [State.consume, Paid] using paid
  case copy consumer data =>
    rw [place] at paid
    obtain ⟨counts, behind, before⟩ := paid
    obtain ⟨_, taken⟩ := Option.ite_none_right_eq_some.mp taken
    split at taken
    next same =>
      cases taken
      refine balanced_moved balanced c ?_ ?_ (Nat.le_succ _)
        (fun d other => by simp [State.consume, other]) ?_
      · rw [← same]
        exact counts_succ balanced.head
      · have moved := total_moved s.takes (Function.update s.takes c (s.takes c + 1)) c
          fun d other => Function.update_of_ne other _ _
        have total := balanced.total
        simp only [Function.update_self] at moved
        show ∑ d, Function.update s.takes c (s.takes c + 1) d = s.dequeues + 1
        omega
      · have more : s.retries c + (s.takes c + 1) ≤ s.dequeues + 1 := by omega
        simpa [State.consume, Paid] using more
    next other =>
      -- the head has moved on, so there is one more take to pay for the retry
      have passed : s.consumerSaw c < s.dequeues := by
        refine Nat.lt_of_le_of_ne behind fun here => other ?_
        rw [← UInt32.toNat_inj, counts, balanced.head, here]
      cases taken
      refine balanced_moved balanced c balanced.head balanced.total (Nat.le_refl _)
        (fun d other => by simp [State.consume, other]) ?_
      have more : s.retries c + 1 + s.takes c ≤ s.dequeues := by omega
      simpa [State.consume, Paid] using ⟨balanced.head, more⟩
  case returning data =>
    cases taken
    refine balanced_moved balanced c balanced.head balanced.total (Nat.le_refl _)
      (fun d other => by simp [State.consume, other]) ?_
    simpa [State.consume, Paid] using happened

theorem step_balanced [DecidableEq Watcher] (balanced : Balanced s)
    (a : Action ts Consumer Watcher) (taken : step s a = some t) : Balanced t := by
  cases a with
  | enqueue entry =>
      cases place : s.producer <;> simp only [step, enqueueCall, place, reduceCtorEq] at taken
      cases taken
      exact ⟨balanced.head, balanced.total, balanced.paid⟩
  | producer =>
      cases place : s.producer <;> simp only [step, producerStep, place, reduceCtorEq] at taken
      case loadHead entry | returning rc =>
        cases taken
        exact ⟨balanced.head, balanced.total, balanced.paid⟩
      case loadTail entry consumer =>
        split at taken <;> cases taken <;> exact ⟨balanced.head, balanced.total, balanced.paid⟩
      case copy entry producer delta copied =>
        obtain ⟨_, taken⟩ := Option.ite_none_right_eq_some.mp taken
        cases taken
        exact ⟨balanced.head, balanced.total, balanced.paid⟩
  | producerCopy i =>
      cases place : s.producer <;> simp only [step, producerCopy, place, reduceCtorEq] at taken
      cases taken
      exact ⟨balanced.head, balanced.total, balanced.paid⟩
  | dequeue c =>
      cases place : s.consumer c <;> simp only [step, dequeueCall, place, reduceCtorEq] at taken
      cases taken
      refine balanced_moved balanced c balanced.head balanced.total (Nat.le_refl _)
        (fun d other => by simp [State.consume, other]) ?_
      simpa [State.consume, Paid] using paid_total (balanced.paid c)
  | consumer c => exact consumer_balanced balanced taken
  | consumerCopy c i =>
      cases place : s.consumer c <;> simp only [step, consumerCopy, place, reduceCtorEq] at taken
      cases taken
      refine balanced_moved balanced c balanced.head balanced.total (Nat.le_refl _)
        (fun d other => by simp [State.consume, other]) ?_
      have paid := balanced.paid c
      rw [place] at paid
      simpa [State.consume, Paid] using paid
  | watcher w =>
      cases taken
      unfold watcherStep
      split <;> exact ⟨balanced.head, balanced.total, balanced.paid⟩

/-- Lock-freedom: a consumer goes round again no more often than the others have
taken entries, wrapped counters or not. -/
theorem retries_paid [DecidableEq Watcher] (size : UInt32) (buffer : Nat → UInt8)
    (schedule : List (Action ts Consumer Watcher)) :
    Always step (fun s => ∀ c, s.retries c ≤ ∑ d ∈ Finset.univ.erase c, s.takes d)
      (start ts size Consumer Watcher buffer) schedule := by
  refine always_mono ?_ _ schedule
    (invariant_keeps (fun s a t (balanced : Balanced s) taken => step_balanced balanced a taken)
      _ schedule
      ⟨rfl, by simp [start], fun c => Nat.le_refl 0⟩)
  intro s balanced c
  have happened := paid_total (balanced.paid c)
  have parts := Finset.add_sum_erase Finset.univ s.takes (Finset.mem_univ c)
  rw [balanced.total] at parts
  omega
end Progress

/-! What `ck_ring_size` says. -/
section Sizes
variable {k : Nat} {s t : State ts Consumer Watcher}

def WatcherFits (s : State ts Consumer Watcher) (saw : Nat × Nat) : WatcherPc → Prop
  | .loadHead => True
  | .loadTail c => Counts c saw.1 ∧ saw.1 ≤ saw.2 ∧ saw.2 ≤ s.accepted.length

/-- A returned size is the length at the first load with what came in before the second,
modulo the size of the ring. -/
def ReportSound (k : Nat) (report : Report) : Prop :=
  report.length < 2 ^ k ∧ report.value.toNat = (report.length + report.stored) % 2 ^ k

structure Watched (k : Nat) (s : State ts Consumer Watcher) : Prop where
  tracked : Tracked k s
  watcher : ∀ w, WatcherFits s (s.watcherSaw w) (s.watcher w)
  near : ∀ w, (s.watcherSaw w).2 < (s.watcherSaw w).1 + 2 ^ k
  reports : ∀ report ∈ s.reports, ReportSound k report

/-- The others leave the watchers alone, and no entry is forgotten. -/
structure Apart (s t : State ts Consumer Watcher) : Prop where
  watcher : t.watcher = s.watcher
  saw : t.watcherSaw = s.watcherSaw
  reports : t.reports = s.reports
  accepted : s.accepted.length ≤ t.accepted.length

theorem producer_apart (taken : producerStep s = some t) : Apart s t := by
  cases place : s.producer <;> simp only [producerStep, place, reduceCtorEq] at taken
  case loadHead entry | returning rc =>
    cases taken
    exact ⟨rfl, rfl, rfl, Nat.le_refl _⟩
  case loadTail entry consumer =>
    split at taken <;> cases taken <;> exact ⟨rfl, rfl, rfl, Nat.le_refl _⟩
  case copy entry producer delta copied =>
    obtain ⟨_, taken⟩ := Option.ite_none_right_eq_some.mp taken
    cases taken
    exact ⟨rfl, rfl, rfl, by simp⟩

theorem apart_watched (watched : Watched k s) (tracked : Tracked k t) (apart : Apart s t) :
    Watched k t where
  tracked := tracked
  watcher w := by
    have fits := watched.watcher w
    rw [apart.watcher, apart.saw]
    cases place : s.watcher w with
    | loadHead => trivial
    | loadTail c =>
        rw [place] at fits
        exact ⟨fits.1, fits.2.1, Nat.le_trans fits.2.2 apart.accepted⟩
  near := by rw [apart.saw]; exact watched.near
  reports := by rw [apart.reports]; exact watched.reports

theorem watcher_watched [DecidableEq Watcher] (small : k ≤ 31) (watched : Watched k s)
    (w : Watcher) : Watched k (watcherStep s w) := by
  have tracked := watcher_tracked watched.tracked w
  have near := watched.near w
  cases place : s.watcher w <;> simp only [watcherStep, place] at tracked ⊢
  case loadHead =>
    refine ⟨tracked, fun v => ?_, fun v => ?_, watched.reports⟩ <;> by_cases same : v = w
    · subst same
      simp only [Function.update_self]
      exact ⟨watched.tracked.head, watched.tracked.order, Nat.le_refl _⟩
    · simp only [Function.update_of_ne same]
      exact watched.watcher v
    · subst same
      simpa only [Function.update_self] using watched.tracked.room
    · simpa only [Function.update_of_ne same] using watched.near v
  case loadTail c =>
    have fits := watched.watcher w
    rw [place] at fits
    obtain ⟨counts, order, grown⟩ := fits
    refine ⟨tracked, fun v => ?_, watched.near, ?_⟩
    · by_cases same : v = w
      · subst same
        simp only [Function.update_self]
        trivial
      · simp only [Function.update_of_ne same]
        exact watched.watcher v
    · intro report member
      rcases List.mem_append.mp member with old | new
      · exact watched.reports report old
      · rw [List.mem_singleton.mp new]
        have gained : s.accepted.length - (s.watcherSaw w).1 =
            (s.watcherSaw w).2 - (s.watcherSaw w).1 +
              (s.accepted.length - (s.watcherSaw w).2) := by omega
        constructor
        · show (s.watcherSaw w).2 - (s.watcherSaw w).1 < 2 ^ k
          omega
        · show ((s.ring.pTail - c) &&& s.ring.mask).toNat = _
          rw [masked_sub small watched.tracked.mask watched.tracked.tail counts (by omega), gained]

variable [DecidableEq Consumer]

theorem consumer_apart {c : Consumer} (taken : consumerStep s c = some t) : Apart s t := by
  cases place : s.consumer c <;> simp only [consumerStep, place, reduceCtorEq] at taken
  case loadHead | returning data =>
    cases taken
    exact ⟨rfl, rfl, rfl, Nat.le_refl _⟩
  case loadTail consumer =>
    split at taken <;> cases taken <;> exact ⟨rfl, rfl, rfl, Nat.le_refl _⟩
  case copy consumer data =>
    obtain ⟨_, taken⟩ := Option.ite_none_right_eq_some.mp taken
    split at taken <;> cases taken <;> exact ⟨rfl, rfl, rfl, Nat.le_refl _⟩

variable [DecidableEq Watcher]

theorem step_watched (small : k ≤ 31) (fits : ts.toNat * 2 ^ k ≤ 2 ^ 32) (watched : Watched k s)
    (a : Action ts Consumer Watcher) (fresh : Fresh s a) (taken : step s a = some t) :
    Watched k t := by
  have tracked := step_tracked small fits watched.tracked a fresh taken
  cases a with
  | enqueue entry =>
      cases place : s.producer <;> simp only [step, enqueueCall, place, reduceCtorEq] at taken
      cases taken
      exact apart_watched watched tracked ⟨rfl, rfl, rfl, Nat.le_refl _⟩
  | producer => exact apart_watched watched tracked (producer_apart taken)
  | producerCopy i =>
      cases place : s.producer <;> simp only [step, producerCopy, place, reduceCtorEq] at taken
      cases taken
      exact apart_watched watched tracked ⟨rfl, rfl, rfl, Nat.le_refl _⟩
  | dequeue c =>
      cases place : s.consumer c <;> simp only [step, dequeueCall, place, reduceCtorEq] at taken
      cases taken
      exact apart_watched watched tracked ⟨rfl, rfl, rfl, Nat.le_refl _⟩
  | consumer c => exact apart_watched watched tracked (consumer_apart taken)
  | consumerCopy c i =>
      cases place : s.consumer c <;> simp only [step, consumerCopy, place, reduceCtorEq] at taken
      cases taken
      exact apart_watched watched tracked ⟨rfl, rfl, rfl, Nat.le_refl _⟩
  | watcher w => exact Option.some.inj taken ▸ watcher_watched small watched w

theorem sizes_sound (small : k ≤ 31) (fits : ts.toNat * 2 ^ k ≤ 2 ^ 32) (buffer : Nat → UInt8)
    (schedule : List (Action ts Consumer Watcher))
    (fresh : Guarded step Fresh
      (start ts (UInt32.ofNat (2 ^ k)) Consumer Watcher buffer) schedule) :
    Always step (fun s => ∀ report ∈ s.reports, ReportSound k report)
      (start ts (UInt32.ofNat (2 ^ k)) Consumer Watcher buffer) schedule := by
  refine always_mono (fun s (watched : Watched k s) => watched.reports) _ schedule
    (guarded_keeps (fun s a t watched here taken => step_watched small fits watched a here taken)
      _ schedule ⟨start_tracked small buffer, fun _ => trivial, ?_, nofun⟩ fresh)
  intro w
  show 0 < 0 + 2 ^ k
  exact Nat.add_pos_right 0 (Nat.two_pow_pos k)

/-- The size read while the first entry comes in. -/
def sizeBeside : List (Action 8 (Bool) Unit) :=
  [.watcher ()] ++ oneEntry.take 12 ++ [.watcher ()]

theorem sizes_sound_beside : Always step (fun s => ∀ report ∈ s.reports, ReportSound 17 report)
    (start 8 (UInt32.ofNat (2 ^ 17)) (Bool) Unit fun _ => 0) sizeBeside :=
  sizes_sound (k := 17) (by decide) (by decide) (fun _ => 0) sizeBeside
    (fresh_of_few _ sizeBeside (by decide))
end Sizes

/-! The queue of the event loop is this atomic queue. -/
section EventQueue
variable {n : Nat} {cfg : EventLoop.Globals} {s t : EventLoop.State n}

theorem generator_queue (taken : EventLoop.generatorStep cfg s = some t)
    (place : s.generator = .enqueue) :
    (boundedQueue EventLoop.ringCapacity).apply s.queue (.enqueue s.index) =
      (t.queue, .accepted (t.generator = .signal)) := by
  simp only [EventLoop.generatorStep, place] at taken
  split at taken <;> cases taken
  next room => simpa using enqueue_room s.index room
  next full => simpa using enqueue_full s.index (Nat.le_of_not_lt full)

theorem worker_queue {w : Fin n} (taken : EventLoop.workerStep cfg s w = some t)
    (place : (s.worker w).pc = .dequeue) :
    (boundedQueue EventLoop.ringCapacity).apply s.queue .dequeue =
      (t.queue, .taken (match (t.worker w).pc with
        | .addConcurrency ptr => ptr
        | _ => none)) := by
  simp only [EventLoop.workerStep, place] at taken
  split at taken <;> cases taken
  next ptr rest listed =>
    rw [listed, dequeue_cons]
    simp [EventLoop.State.goto, EventLoop.State.set]
  next listed =>
    rw [listed, dequeue_empty]
    simp [EventLoop.State.set, listed]
end EventQueue
end PteSysbench.RingObservers
