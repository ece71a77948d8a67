import PteSysbench.CkRing

/-!
The ring of one producer and many consumers as an atomic queue. A copy may meet a slot
that is being written, or one that holds a later entry already; the exchange of the head
then fails and the copy is thrown away.
-/

namespace PteSysbench.RingLinearizable

open ActionSystem AtomicObject CkRing

variable {ts : UInt32} {Consumer Watcher : Type}

/-! What holds between any two steps. -/
section Invariant

/-- What the locals of the producer say. -/
def ProducerFits (k : Nat) (s : State ts Consumer Watcher) : ProducerPc ts → Prop
  | .loadTail _ consumer =>
      Counts consumer s.producerSaw ∧ s.producerSaw ≤ s.dequeues ∧
        s.accepted.length < s.producerSaw + 2 ^ k
  | .copy entry producer delta copied =>
      Counts producer s.accepted.length ∧ delta = producer + 1 ∧
        s.accepted.length + 1 < s.dequeues + 2 ^ k ∧
        ∀ i, copied i = true →
          s.buffer (ts.toNat * (s.accepted.length % 2 ^ k) + i) = entry i
  | _ => True

/-- What the locals of a consumer say. While no entry has been taken since it loaded the
head, its copy is one of the entry at the head. -/
def ConsumerFits (s : State ts Consumer Watcher) (saw : Nat) : ConsumerPc ts → Prop
  | .loadTail consumer => Counts consumer saw ∧ saw ≤ s.dequeues
  | .copy consumer data =>
      Counts consumer saw ∧ saw ≤ s.dequeues ∧
        (s.dequeues = saw → ∃ entry, s.accepted[saw]? = some entry ∧
          ∀ i byte, data i = some byte → byte = entry i)
  | _ => True

structure Tracked (k : Nat) (s : State ts Consumer Watcher) : Prop where
  mask : s.ring.mask.toNat = 2 ^ k - 1
  head : Counts s.ring.cHead s.dequeues
  tail : Counts s.ring.pTail s.accepted.length
  order : s.dequeues ≤ s.accepted.length
  room : s.accepted.length < s.dequeues + 2 ^ k
  slots : ∀ n entry, s.dequeues ≤ n → s.accepted[n]? = some entry → Holds k s.buffer n entry
  producer : ProducerFits k s s.producer
  consumer : ∀ c, ConsumerFits s (s.consumerSaw c) (s.consumer c)

variable {k : Nat} {s t : State ts Consumer Watcher}

/-- The same shared words, and the locals still fit. -/
theorem local_tracked (tracked : Tracked k s) (ring : t.ring = s.ring)
    (buffer : t.buffer = s.buffer) (accepted : t.accepted = s.accepted)
    (dequeues : t.dequeues = s.dequeues) (producer : ProducerFits k t t.producer)
    (consumer : ∀ c, ConsumerFits t (t.consumerSaw c) (t.consumer c)) : Tracked k t where
  mask := by rw [ring]; exact tracked.mask
  head := by rw [ring, dequeues]; exact tracked.head
  tail := by rw [ring, accepted]; exact tracked.tail
  order := by rw [dequeues, accepted]; exact tracked.order
  room := by rw [dequeues, accepted]; exact tracked.room
  slots := by rw [dequeues, accepted, buffer]; exact tracked.slots
  producer := producer
  consumer := consumer

/-- Only shared words of the state matter to a consumer's locals. -/
theorem consumer_fits_congr {saw : Nat} {pc : ConsumerPc ts} (accepted : t.accepted = s.accepted)
    (dequeues : t.dequeues = s.dequeues) (fits : ConsumerFits s saw pc) :
    ConsumerFits t saw pc := by
  cases pc <;> simp_all [ConsumerFits]

theorem producer_fits_congr {pc : ProducerPc ts} (buffer : t.buffer = s.buffer)
    (accepted : t.accepted = s.accepted) (dequeues : t.dequeues = s.dequeues)
    (saw : t.producerSaw = s.producerSaw) (fits : ProducerFits k s pc) :
    ProducerFits k t pc := by
  cases pc <;> simp_all [ProducerFits]

theorem produce_tracked (tracked : Tracked k s) (ring : t.ring = s.ring)
    (buffer : t.buffer = s.buffer) (accepted : t.accepted = s.accepted)
    (dequeues : t.dequeues = s.dequeues) (consumer : t.consumer = s.consumer)
    (saw : t.consumerSaw = s.consumerSaw) (fits : ProducerFits k t t.producer) :
    Tracked k t := by
  refine local_tracked tracked ring buffer accepted dequeues fits fun c => ?_
  rw [consumer, saw]
  exact consumer_fits_congr accepted dequeues (tracked.consumer c)

theorem consume_tracked [DecidableEq Consumer] (tracked : Tracked k s) (c : Consumer)
    (ring : t.ring = s.ring) (buffer : t.buffer = s.buffer) (accepted : t.accepted = s.accepted)
    (dequeues : t.dequeues = s.dequeues) (producer : t.producer = s.producer)
    (saw : t.producerSaw = s.producerSaw)
    (others : ∀ d, d ≠ c → t.consumer d = s.consumer d ∧ t.consumerSaw d = s.consumerSaw d)
    (fits : ConsumerFits s (t.consumerSaw c) (t.consumer c)) : Tracked k t := by
  refine local_tracked tracked ring buffer accepted dequeues ?_ fun d => ?_
  · rw [producer]
    exact producer_fits_congr buffer accepted dequeues saw tracked.producer
  · refine consumer_fits_congr accepted dequeues ?_
    by_cases same : d = c
    · rw [same]
      exact fits
    · rw [(others d same).1, (others d same).2]
      exact tracked.consumer d

theorem store_tracked (tracked : Tracked k s) {entry : Entry ts}
    {producer delta : UInt32} {copied : Fin ts.toNat → Bool}
    (place : s.producer = .copy entry producer delta copied) (all : ∀ i, copied i = true) :
    Tracked k { s.produce (.returning true) with
      ring := { s.ring with pTail := delta }
      accepted := s.accepted ++ [entry] } := by
  have fits := tracked.producer
  rw [place] at fits
  obtain ⟨counts, rfl, space, bytes⟩ := fits
  constructor
  case mask => exact tracked.mask
  case head => exact tracked.head
  case tail =>
    simp only [List.length_append, List.length_singleton]
    exact counts_succ counts
  case order =>
    have order := tracked.order
    simp only [List.length_append, List.length_singleton]
    exact Nat.le_succ_of_le order
  case room => simpa [State.produce] using space
  case slots =>
    intro n other reached present
    rcases Nat.lt_or_ge n s.accepted.length with old | last
    · rw [List.getElem?_append_left old] at present
      exact tracked.slots n other reached present
    · have bound := (List.getElem?_eq_some_iff.mp present).1
      have here : n = s.accepted.length := by
        simp only [List.length_append, List.length_singleton] at bound
        omega
      subst here
      rw [List.getElem?_concat_length] at present
      cases present
      exact fun i => bytes i (all i)
  case producer => trivial
  case consumer =>
    intro c
    have fits := tracked.consumer c
    simp only [State.produce]
    cases at_ : s.consumer c with
    | copy consumer data =>
        rw [at_] at fits
        refine ⟨fits.1, fits.2.1, fun same => ?_⟩
        obtain ⟨found, present, bytes⟩ := fits.2.2 same
        have bound := (List.getElem?_eq_some_iff.mp present).1
        exact ⟨found, by simpa [List.getElem?_append_left bound] using present, bytes⟩
    | loadTail consumer =>
        rw [at_] at fits
        exact ⟨fits.1, fits.2⟩
    | idle | loadHead | returning data => trivial

/-- The byte goes to a slot that no entry of the queue has. -/
theorem copy_tracked (small : k ≤ 31) (fits : ts.toNat * 2 ^ k ≤ 2 ^ 32) (tracked : Tracked k s)
    (i : Fin ts.toNat) (taken : producerCopy s i = some t) : Tracked k t := by
  cases place : s.producer <;> simp only [producerCopy, place, reduceCtorEq] at taken
  case copy entry producer delta copied =>
    have known := tracked.producer
    rw [place] at known
    obtain ⟨counts, after, space, bytes⟩ := known
    rw [slot_eq small tracked.mask fits counts] at taken
    cases taken
    refine { tracked with slots := ?_, producer := ?_, consumer := ?_ }
    · intro n other (reached : s.dequeues ≤ n) present
      have bound : n < s.accepted.length := (List.getElem?_eq_some_iff.mp present).1
      refine holds_update (tracked.slots n other reached present) ?_ i (entry i)
      intro same
      have here : n = s.accepted.length :=
        place_inj (Nat.le_of_lt bound) (by omega) same
      omega
    · refine ⟨counts, after, space, fun j done => ?_⟩
      by_cases same : j = i
      · rw [same]
        exact Function.update_self _ _ _
      · rw [Function.update_of_ne same] at done
        have old := bytes j done
        show Function.update s.buffer (ts.toNat * (s.accepted.length % 2 ^ k) + i) (entry i)
          (ts.toNat * (s.accepted.length % 2 ^ k) + j) = entry j
        rw [Function.update_of_ne fun equal => same (Fin.ext (Nat.add_left_cancel equal))]
        exact old
    · exact fun c => consumer_fits_congr rfl rfl (tracked.consumer c)

theorem producer_tracked (small : k ≤ 31) (tracked : Tracked k s)
    (taken : producerStep s = some t) : Tracked k t := by
  cases place : s.producer <;> simp only [producerStep, place, reduceCtorEq] at taken
  case loadHead entry =>
    cases taken
    exact produce_tracked tracked rfl rfl rfl rfl rfl rfl
      ⟨tracked.head, Nat.le_refl _, tracked.room⟩
  case loadTail entry consumer =>
    have known := tracked.producer
    rw [place] at known
    obtain ⟨counts, behind, near⟩ := known
    split at taken
    · cases taken
      exact produce_tracked tracked rfl rfl rfl rfl rfl rfl trivial
    next space =>
      cases taken
      refine produce_tracked tracked rfl rfl rfl rfl rfl rfl ⟨tracked.tail, rfl, ?_, nofun⟩
      have order := tracked.order
      rw [← UInt32.toNat_inj, masked small tracked.mask (counts_succ tracked.tail),
        masked small tracked.mask counts,
        round_iff (n := s.producerSaw) (by omega) (by omega)] at space
      show s.accepted.length + 1 < s.dequeues + 2 ^ k
      omega
  case copy entry producer delta copied =>
    obtain ⟨all, taken⟩ := Option.ite_none_right_eq_some.mp taken
    cases taken
    exact store_tracked tracked place all
  case returning rc =>
    cases taken
    exact produce_tracked tracked rfl rfl rfl rfl rfl rfl trivial

/-- The exchange succeeds only where no entry was taken since the head was loaded. -/
theorem exchange_head {c : Consumer} (tracked : Tracked k s) {consumer : UInt32}
    {data : Fin ts.toNat → Option UInt8} (place : s.consumer c = .copy consumer data)
    (near : s.accepted.length < s.consumerSaw c + 2 ^ 32) (same : s.ring.cHead = consumer) :
    ∃ entry, s.accepted[s.dequeues]? = some entry ∧
      ∀ i byte, data i = some byte → byte = entry i := by
  have fits := tracked.consumer c
  rw [place] at fits
  obtain ⟨counts, behind, bytes⟩ := fits
  have order := tracked.order
  have here : s.consumerSaw c = s.dequeues :=
    (counts_inj counts tracked.head behind (by omega)).mp same.symm
  rw [here] at bytes
  exact bytes rfl

theorem watcher_tracked [DecidableEq Watcher] (tracked : Tracked k s) (w : Watcher) :
    Tracked k (watcherStep s w) := by
  unfold watcherStep
  split <;> exact { tracked with producer := tracked.producer, consumer := tracked.consumer }

section Consumers
variable [DecidableEq Consumer] {c : Consumer}

theorem others_unchanged (s : State ts Consumer Watcher) (pc : ConsumerPc ts) (d : Consumer)
    (other : d ≠ c) : (s.consume c pc).consumer d = s.consumer d :=
  Function.update_of_ne other _ _

/-- A consumer that moves to a place where nothing is known of its locals. -/
theorem plain_tracked (tracked : Tracked k s) (pc : ConsumerPc ts)
    (plain : ∀ saw, ConsumerFits s saw pc) : Tracked k (s.consume c pc) :=
  consume_tracked tracked c rfl rfl rfl rfl rfl rfl
    (fun d other => ⟨others_unchanged s pc d other, rfl⟩)
    (by simpa [State.consume] using plain _)

theorem load_tracked (tracked : Tracked k s)
    (ring : t.ring = s.ring) (buffer : t.buffer = s.buffer) (accepted : t.accepted = s.accepted)
    (dequeues : t.dequeues = s.dequeues) (producer : t.producer = s.producer)
    (producerSaw : t.producerSaw = s.producerSaw)
    (moved : t.consumer = Function.update s.consumer c (.loadTail s.ring.cHead))
    (saw : t.consumerSaw = Function.update s.consumerSaw c s.dequeues) : Tracked k t := by
  refine consume_tracked tracked c ring buffer accepted dequeues producer producerSaw ?_ ?_
  · intro d other
    rw [moved, saw, Function.update_of_ne other, Function.update_of_ne other]
    exact ⟨rfl, rfl⟩
  · rw [moved, saw, Function.update_self, Function.update_self]
    exact ⟨tracked.head, Nat.le_refl _⟩

theorem take_tracked (tracked : Tracked k s) {consumer : UInt32}
    {data : Fin ts.toNat → Option UInt8} (place : s.consumer c = .copy consumer data)
    (near : s.accepted.length < s.consumerSaw c + 2 ^ 32) (same : s.ring.cHead = consumer)
    (result : Option (Entry ts)) (takes : Consumer → Nat) :
    Tracked k { s.consume c (.returning result) with
      ring := { s.ring with cHead := consumer + 1 }
      dequeues := s.dequeues + 1
      takes := takes } := by
  obtain ⟨entry, present, _⟩ := exchange_head tracked place near same
  have bound := (List.getElem?_eq_some_iff.mp present).1
  have room := tracked.room
  constructor
  case mask => exact tracked.mask
  case head =>
    rw [← same]
    exact counts_succ tracked.head
  case tail => exact tracked.tail
  case order => exact bound
  case room =>
    show s.accepted.length < s.dequeues + 1 + 2 ^ k
    omega
  case slots =>
    intro n other (reached : s.dequeues + 1 ≤ n) there
    exact tracked.slots n other (by omega) there
  case producer =>
    have fits := tracked.producer
    simp only [State.consume]
    cases at_ : s.producer with
    | loadTail entry consumer =>
        rw [at_] at fits
        exact ⟨fits.1, Nat.le_succ_of_le fits.2.1, fits.2.2⟩
    | copy entry producer delta copied =>
        rw [at_] at fits
        refine ⟨fits.1, fits.2.1, ?_, fits.2.2.2⟩
        have space := fits.2.2.1
        show s.accepted.length + 1 < s.dequeues + 1 + 2 ^ k
        omega
    | idle | loadHead entry | returning rc => trivial
  case consumer =>
    intro d
    by_cases itself : d = c
    · simp [itself, State.consume, ConsumerFits]
    · have fits := tracked.consumer d
      simp only [State.consume, Function.update_of_ne itself]
      cases at_ : s.consumer d with
      | loadTail other =>
          rw [at_] at fits
          exact ⟨fits.1, Nat.le_succ_of_le fits.2⟩
      | copy other data =>
          rw [at_] at fits
          refine ⟨fits.1, Nat.le_succ_of_le fits.2.1, fun passed => ?_⟩
          have behind := fits.2.1
          have passed : s.dequeues + 1 = s.consumerSaw d := passed
          omega
      | idle | loadHead | returning data => trivial

theorem read_tracked (small : k ≤ 31) (fits : ts.toNat * 2 ^ k ≤ 2 ^ 32) (tracked : Tracked k s)
    (i : Fin ts.toNat) (taken : consumerCopy s c i = some t) : Tracked k t := by
  cases place : s.consumer c <;> simp only [consumerCopy, place, reduceCtorEq] at taken
  case copy consumer data =>
    have known := tracked.consumer c
    rw [place] at known
    obtain ⟨counts, behind, bytes⟩ := known
    rw [slot_eq small tracked.mask fits counts] at taken
    cases taken
    refine consume_tracked tracked c rfl rfl rfl rfl rfl rfl
      (fun d other => ⟨others_unchanged s _ d other, rfl⟩) ?_
    simp only [State.consume, Function.update_self]
    refine ⟨counts, behind, fun same => ?_⟩
    obtain ⟨entry, present, copied⟩ := bytes same
    refine ⟨entry, present, fun j byte done => ?_⟩
    by_cases here : j = i
    · rw [here, Function.update_self, Option.some.injEq] at done
      rw [← done, here]
      exact tracked.slots _ entry (Nat.le_of_eq same) present i
    · rw [Function.update_of_ne here] at done
      exact copied j byte done

theorem consumer_tracked (tracked : Tracked k s) (fresh : Fresh s (.consumer c))
    (taken : consumerStep s c = some t) : Tracked k t := by
  cases place : s.consumer c <;> simp only [consumerStep, place, reduceCtorEq] at taken
  case loadHead =>
    cases taken
    exact load_tracked tracked rfl rfl rfl rfl rfl rfl rfl rfl
  case loadTail consumer =>
    split at taken
    · cases taken
      exact plain_tracked tracked _ fun _ => trivial
    next different =>
      cases taken
      have known := tracked.consumer c
      rw [place] at known
      obtain ⟨counts, behind⟩ := known
      refine consume_tracked tracked c rfl rfl rfl rfl rfl rfl
        (fun d other => ⟨others_unchanged s _ d other, rfl⟩) ?_
      simp only [State.consume, Function.update_self]
      refine ⟨counts, behind, fun same => ?_⟩
      have order := tracked.order
      have some_ : s.consumerSaw c < s.accepted.length := by
        refine Nat.lt_of_le_of_ne (by omega) fun last => different ?_
        rw [← UInt32.toNat_inj, counts, tracked.tail, last]
      exact ⟨_, List.getElem?_eq_getElem some_, nofun⟩
  case copy consumer data =>
    obtain ⟨all, taken⟩ := Option.ite_none_right_eq_some.mp taken
    have near := fresh (by simp [place, ConsumerPc.attempting])
    split at taken
    next same =>
      cases taken
      exact take_tracked tracked place near same _ _
    · cases taken
      exact load_tracked tracked rfl rfl rfl rfl rfl rfl rfl rfl
  case returning data =>
    cases taken
    exact plain_tracked tracked _ fun _ => trivial

theorem step_tracked [DecidableEq Watcher] (small : k ≤ 31) (fits : ts.toNat * 2 ^ k ≤ 2 ^ 32)
    (tracked : Tracked k s) (a : Action ts Consumer Watcher) (fresh : Fresh s a)
    (taken : step s a = some t) : Tracked k t := by
  cases a with
  | enqueue entry =>
      cases place : s.producer <;> simp only [step, enqueueCall, place, reduceCtorEq] at taken
      cases taken
      exact produce_tracked tracked rfl rfl rfl rfl rfl rfl trivial
  | producer => exact producer_tracked small tracked taken
  | producerCopy i => exact copy_tracked small fits tracked i taken
  | dequeue c =>
      cases place : s.consumer c <;> simp only [step, dequeueCall, place, reduceCtorEq] at taken
      cases taken
      exact plain_tracked tracked _ fun _ => trivial
  | consumer c => exact consumer_tracked tracked fresh taken
  | consumerCopy c i => exact read_tracked small fits tracked i taken
  | watcher w => exact Option.some.inj taken ▸ watcher_tracked tracked w
end Consumers

theorem start_tracked (small : k ≤ 31) (buffer : Nat → UInt8) :
    Tracked k (start ts (UInt32.ofNat (2 ^ k)) Consumer Watcher buffer) := by
  have size : 2 ^ k < 2 ^ 32 := Nat.pow_lt_pow_right (by omega) (by omega)
  have some_ := Nat.two_pow_pos k
  constructor
  case mask =>
    have word : (UInt32.ofNat (2 ^ k)).toNat = 2 ^ k := by
      rw [UInt32.toNat_ofNat', Nat.mod_eq_of_lt size]
    simp only [start, ckRingInit, UInt32.toNat_sub, word, UInt32.toNat_one]
    omega
  case head | tail => rfl
  case order => exact Nat.le_refl 0
  case room => simpa [start] using some_
  case slots => intro n entry _ present; simp [start] at present
  case producer => trivial
  case consumer => exact fun _ => trivial
end Invariant

/-! The ring is a bounded queue that takes every call at one moment: a full ring is found
at the load of `c_head`, an empty one at that of `p_tail`. -/
section Refinement

def producerStatus (s : State ts Consumer Watcher) :
    Status (QueueOperation (Entry ts)) (QueueResult (Entry ts)) :=
  match s.producer with
  | .idle => .idle
  | .loadHead entry => .called (.enqueue entry)
  | .loadTail entry consumer =>
      if (s.ring.pTail + 1) &&& s.ring.mask = consumer &&& s.ring.mask then .done (.accepted false)
      else .called (.enqueue entry)
  | .copy entry _ _ _ => .called (.enqueue entry)
  | .returning rc => .done (.accepted rc)

def consumerStatus : ConsumerPc ts → Status (QueueOperation (Entry ts)) (QueueResult (Entry ts))
  | .idle => .idle
  | .returning data => .done (.taken data)
  | .loadHead | .loadTail _ | .copy _ _ => .called .dequeue

def atomic (s : State ts Consumer Watcher) : AtomicState (Party Consumer)
    (List (Entry ts)) (QueueOperation (Entry ts)) (QueueResult (Entry ts)) where
  contents := s.accepted.drop s.dequeues
  status
    | .producer => producerStatus s
    | .consumer c => consumerStatus (s.consumer c)

theorem length_contents (s : State ts Consumer Watcher) :
    (atomic s).contents.length = s.accepted.length - s.dequeues :=
  List.length_drop

variable [DecidableEq Consumer] {k : Nat} {s t : State ts Consumer Watcher}

theorem status_produce {status : Status (QueueOperation (Entry ts)) (QueueResult (Entry ts))}
    (consumer : t.consumer = s.consumer) (place : producerStatus t = status) :
    (atomic t).status = Function.update (atomic s).status .producer status := by
  funext party
  cases party with
  | producer =>
      rw [Function.update_self]
      exact place
  | consumer c =>
      rw [Function.update_of_ne (show Party.consumer c ≠ Party.producer from nofun)]
      simp only [atomic, consumer]

theorem status_consume {c : Consumer} {pc : ConsumerPc ts}
    {status : Status (QueueOperation (Entry ts)) (QueueResult (Entry ts))}
    (producer : t.producer = s.producer) (tail : t.ring.pTail = s.ring.pTail)
    (mask : t.ring.mask = s.ring.mask) (moved : t.consumer = Function.update s.consumer c pc)
    (place : consumerStatus pc = status) :
    (atomic t).status = Function.update (atomic s).status (.consumer c) status := by
  funext party
  cases party with
  | producer =>
      rw [Function.update_of_ne (show Party.producer ≠ Party.consumer c from nofun)]
      simp only [atomic, producerStatus, producer, tail, mask]
  | consumer d =>
      by_cases same : d = c
      · rw [same, Function.update_self]
        simp only [atomic, moved, Function.update_self, place]
      · rw [Function.update_of_ne fun equal => same (Party.consumer.inj equal)]
        simp only [atomic, moved, Function.update_of_ne same]

/-- A step of the producer that the atomic queue does not see. -/
theorem produce_silent (consumer : t.consumer = s.consumer)
    (contents : (atomic t).contents = (atomic s).contents)
    (status : producerStatus t = producerStatus s) : atomic t = atomic s := by
  refine AtomicState.ext contents ?_
  rw [status_produce consumer status]
  exact Function.update_eq_self _ _

theorem consume_silent {c : Consumer} {pc : ConsumerPc ts} (producer : t.producer = s.producer)
    (tail : t.ring.pTail = s.ring.pTail) (mask : t.ring.mask = s.ring.mask)
    (moved : t.consumer = Function.update s.consumer c pc)
    (contents : (atomic t).contents = (atomic s).contents)
    (status : consumerStatus pc = consumerStatus (s.consumer c)) : atomic t = atomic s := by
  refine AtomicState.ext contents ?_
  rw [status_consume producer tail mask moved status]
  exact Function.update_eq_self _ _

theorem producer_matched (small : k ≤ 31) (tracked : Tracked k s)
    (taken : producerStep s = some t) :
    Matches (boundedQueue (2 ^ k - 1)) (atomic s) (atomic t)
      (shows s (.producer : Action ts Consumer Watcher)).toList := by
  cases place : s.producer <;> simp only [producerStep, place, reduceCtorEq] at taken <;>
    simp only [shows, place, Option.toList_none, Option.toList_some]
  case loadHead entry =>
    have order := tracked.order
    have room := tracked.room
    have met : (s.ring.pTail + 1) &&& s.ring.mask = s.ring.cHead &&& s.ring.mask ↔
        s.accepted.length + 1 = s.dequeues + 2 ^ k := by
      rw [← UInt32.toNat_inj, masked small tracked.mask (counts_succ tracked.tail),
        masked small tracked.mask tracked.head, round_iff (by omega) (by omega)]
    cases taken
    by_cases full : s.accepted.length + 1 = s.dequeues + 2 ^ k
    · refine matches_take .producer (.enqueue entry) (.accepted false) ?_
        (enqueue_full entry ?_) ?_
      · simp [atomic, producerStatus, place]
      · rw [length_contents]
        omega
      · refine status_produce rfl ?_
        simp [producerStatus, State.produce, met, full]
    · refine matches_silent (produce_silent rfl rfl ?_)
      simp [producerStatus, State.produce, met, full, place]
  case loadTail entry consumer =>
    split at taken <;> cases taken <;> refine matches_silent (produce_silent rfl rfl ?_)
    next full => simp [producerStatus, State.produce, place, full]
    next space => simp [producerStatus, State.produce, place, space]
  case copy entry producer delta copied =>
    obtain ⟨all, taken⟩ := Option.ite_none_right_eq_some.mp taken
    cases taken
    have known := tracked.producer
    rw [place] at known
    have space := known.2.2.1
    have order := tracked.order
    refine matches_take .producer (.enqueue entry) (.accepted true) ?_ ?_ ?_
    · simp [atomic, producerStatus, place]
    · rw [enqueue_room entry (by rw [length_contents]; omega)]
      simp only [atomic, State.produce, Prod.mk.injEq, and_true]
      rw [List.drop_append_of_le_length tracked.order]
    · exact status_produce rfl rfl
  case returning rc =>
    cases taken
    refine matches_answer ?_ rfl ?_
    · simp [atomic, producerStatus, place]
    · exact status_produce rfl rfl

theorem consumer_matched {c : Consumer} (tracked : Tracked k s)
    (fresh : Fresh s (.consumer c : Action ts Consumer Watcher))
    (taken : consumerStep s c = some t) :
    Matches (boundedQueue (2 ^ k - 1)) (atomic s) (atomic t)
      (shows s (.consumer c : Action ts Consumer Watcher)).toList := by
  cases place : s.consumer c <;> simp only [consumerStep, place, reduceCtorEq] at taken <;>
    simp only [shows, place, Option.toList_none, Option.toList_some]
  case loadHead =>
    cases taken
    exact matches_silent (consume_silent rfl rfl rfl rfl rfl (by rw [place]; rfl))
  case loadTail consumer =>
    have known := tracked.consumer c
    rw [place] at known
    obtain ⟨counts, behind⟩ := known
    have order := tracked.order
    have near := fresh (by simp [place, ConsumerPc.attempting])
    split at taken
    next same =>
      -- the head met then is the tail, and the head has not passed the tail since
      have last : s.consumerSaw c = s.accepted.length :=
        (counts_inj counts tracked.tail (by omega) near).mp same
      have nothing : (atomic s).contents = [] := List.drop_of_length_le (by omega)
      cases taken
      refine matches_take (.consumer c) .dequeue (.taken none) ?_ ?_ ?_
      · simp [atomic, consumerStatus, place]
      · show _ = ((atomic s).contents, _)
        rw [nothing]
        exact dequeue_empty
      · exact status_consume rfl rfl rfl rfl rfl
    · cases taken
      exact matches_silent (consume_silent rfl rfl rfl rfl rfl (by rw [place]; rfl))
  case copy consumer data =>
    obtain ⟨all, taken⟩ := Option.ite_none_right_eq_some.mp taken
    have near := fresh (by simp [place, ConsumerPc.attempting])
    split at taken
    next same =>
      obtain ⟨entry, present, bytes⟩ := exchange_head tracked place near same
      obtain ⟨bound, here⟩ := List.getElem?_eq_some_iff.mp present
      have whole : (fun i => (data i).getD 0) = entry := by
        funext i
        obtain ⟨byte, copied⟩ := Option.isSome_iff_exists.mp (all i)
        rw [copied, Option.getD_some]
        exact bytes i byte copied
      rw [whole] at taken
      cases taken
      refine matches_take (.consumer c) .dequeue (.taken (some entry)) ?_ ?_ ?_
      · simp [atomic, consumerStatus, place]
      · simp only [atomic, State.consume]
        rw [List.drop_eq_getElem_cons bound, here]
        exact dequeue_cons entry _
      · exact status_consume rfl rfl rfl rfl rfl
    · cases taken
      exact matches_silent (consume_silent rfl rfl rfl rfl rfl (by rw [place]; rfl))
  case returning data =>
    cases taken
    refine matches_answer ?_ rfl ?_
    · simp [atomic, consumerStatus, place]
    · exact status_consume rfl rfl rfl rfl rfl

variable [DecidableEq Watcher]

theorem step_matched (small : k ≤ 31) (tracked : Tracked k s) (a : Action ts Consumer Watcher)
    (fresh : Fresh s a) (taken : step s a = some t) :
    Matches (boundedQueue (2 ^ k - 1)) (atomic s) (atomic t) (shows s a).toList := by
  cases a with
  | enqueue entry =>
      cases place : s.producer <;> simp only [step, enqueueCall, place, reduceCtorEq] at taken
      cases taken
      refine matches_call ?_ rfl ?_
      · simp [atomic, producerStatus, place]
      · exact status_produce rfl rfl
  | producer => exact producer_matched small tracked taken
  | producerCopy i =>
      cases place : s.producer <;> simp only [step, producerCopy, place, reduceCtorEq] at taken
      cases taken
      refine matches_silent (produce_silent rfl rfl ?_)
      simp only [producerStatus, State.produce, place]
  | dequeue c =>
      cases place : s.consumer c <;> simp only [step, dequeueCall, place, reduceCtorEq] at taken
      cases taken
      refine matches_call ?_ rfl ?_
      · simp [atomic, consumerStatus, place]
      · exact status_consume rfl rfl rfl rfl rfl
  | consumer c => exact consumer_matched tracked fresh taken
  | consumerCopy c i =>
      cases place : s.consumer c <;> simp only [step, consumerCopy, place, reduceCtorEq] at taken
      cases taken
      exact matches_silent (consume_silent rfl rfl rfl rfl rfl (by rw [place]; rfl))
  | watcher w =>
      cases taken
      refine matches_silent ?_
      unfold watcherStep
      split <;> rfl

/-- What the parties see of the ring, whatever the interleaving, an atomic queue of one
entry less than the ring's size could have answered. -/
theorem ring_linearizable (small : k ≤ 31) (fits : ts.toNat * 2 ^ k ≤ 2 ^ 32)
    (buffer : Nat → UInt8) (schedule : List (Action ts Consumer Watcher))
    (fresh : Guarded step Fresh
      (start ts (UInt32.ofNat (2 ^ k)) Consumer Watcher buffer) schedule) :
    Linearizable (boundedQueue (2 ^ k - 1)) (trace step shows
      (start ts (UInt32.ofNat (2 ^ k)) Consumer Watcher buffer) schedule) := by
  refine linearizable_of_map atomic
    (fun s a t (tracked : Tracked k s) (fresh : Fresh s a) taken =>
      step_tracked small fits tracked a fresh taken)
    (fun s a t tracked fresh taken => step_matched small tracked a fresh taken)
    _ schedule (start_tracked small buffer) ?_ fresh
  refine AtomicState.ext rfl ?_
  funext party
  cases party <;> rfl
end Refinement

/-! Runs in which no counter can wrap. -/
section FewEntries
variable [DecidableEq Consumer] {s t : State ts Consumer Watcher}

theorem consumer_step_producer {c : Consumer} (taken : consumerStep s c = some t) :
    t.accepted = s.accepted ∧ t.producer = s.producer := by
  cases place : s.consumer c <;> simp only [consumerStep, place, reduceCtorEq] at taken
  case loadHead | returning data =>
    cases taken
    exact ⟨rfl, rfl⟩
  case loadTail consumer => split at taken <;> cases taken <;> exact ⟨rfl, rfl⟩
  case copy consumer data =>
    obtain ⟨_, taken⟩ := Option.ite_none_right_eq_some.mp taken
    split at taken <;> cases taken <;> exact ⟨rfl, rfl⟩

variable [DecidableEq Watcher]

def enqueues (schedule : List (Action ts Consumer Watcher)) : Nat :=
  schedule.countP fun | .enqueue _ => true | _ => false

/-- The entry that the producer is at, if it is not stored yet. -/
def underway : ProducerPc ts → Nat
  | .idle | .returning _ => 0
  | .loadHead _ | .loadTail _ _ | .copy _ _ _ _ => 1

/-- Every entry comes in through a call of its own. -/
theorem entries_step (a : Action ts Consumer Watcher) (taken : step s a = some t) :
    t.accepted.length + underway t.producer ≤
      s.accepted.length + underway s.producer + enqueues [a] := by
  cases a with
  | enqueue entry =>
      cases place : s.producer <;> simp only [step, enqueueCall, place, reduceCtorEq] at taken
      cases taken
      exact Nat.le_refl _
  | producer =>
      cases place : s.producer <;> simp only [step, producerStep, place, reduceCtorEq] at taken
      case loadHead entry | returning rc => cases taken; exact Nat.le_refl _
      case loadTail entry consumer =>
        split at taken <;> cases taken
        · exact Nat.le_add_right_of_le (Nat.le_add_right _ 1)
        · exact Nat.le_refl _
      case copy entry producer delta copied =>
        obtain ⟨_, taken⟩ := Option.ite_none_right_eq_some.mp taken
        cases taken
        simp [State.produce, underway]
  | producerCopy i =>
      cases place : s.producer <;> simp only [step, producerCopy, place, reduceCtorEq] at taken
      cases taken
      exact Nat.le_refl _
  | dequeue c =>
      cases place : s.consumer c <;> simp only [step, dequeueCall, place, reduceCtorEq] at taken
      cases taken
      exact Nat.le_refl _
  | consumer c =>
      obtain ⟨accepted, producer⟩ := consumer_step_producer taken
      rw [accepted, producer]
      exact Nat.le_add_right _ _
  | consumerCopy c i =>
      cases place : s.consumer c <;> simp only [step, consumerCopy, place, reduceCtorEq] at taken
      cases taken
      exact Nat.le_refl _
  | watcher w =>
      cases taken
      unfold watcherStep
      split <;> exact Nat.le_refl _

theorem fresh_of_few (s : State ts Consumer Watcher)
    (schedule : List (Action ts Consumer Watcher))
    (few : s.accepted.length + underway s.producer + enqueues schedule < 2 ^ 32) :
    Guarded step Fresh s schedule := by
  induction schedule generalizing s with
  | nil => trivial
  | cons a rest ih =>
      intro t taken
      have split_ : enqueues (a :: rest) = enqueues [a] + enqueues rest :=
        @List.countP_append _ _ [a] rest
      have moved := entries_step a taken
      refine ⟨?_, ih t (by omega)⟩
      cases a with
      | consumer c => exact fun _ => by omega
      | _ => trivial

/-- One entry through the ring of the event queue, and a consumer that copies it in vain. -/
def oneEntry : List (Action 8 (Bool) Unit) :=
  [.enqueue fun i => UInt8.ofNat i, .producer, .producer] ++
    (List.finRange _).map .producerCopy ++
    [.producer, .producer, .dequeue false, .dequeue true, .consumer false, .consumer true,
      .consumer false, .consumer true] ++
    (List.finRange _).map (.consumerCopy false) ++
    (List.finRange _).map (.consumerCopy true) ++
    [.consumer true, .consumer false, .consumer false, .consumer true, .consumer false]

theorem ring_linearizable_one_entry :
    Linearizable (boundedQueue (2 ^ 17 - 1)) (trace step shows
      (start 8 (UInt32.ofNat (2 ^ 17)) (Bool) Unit fun _ => 0) oneEntry) :=
  ring_linearizable (k := 17) (by decide) (by decide) (fun _ => 0) oneEntry
    (fresh_of_few _ oneEntry (by decide))
end FewEntries
end PteSysbench.RingLinearizable
