import PteSysbench.AtomicObject
import Mathlib.Data.Fintype.Basic

/-!
The ring of `ck_ring.h` with one producer and any number of consumers. Every load and
store of a shared word is a step of its own and so is every byte of a copy, in any
order; steps take effect in the order of the schedule, as the fences of the source ask.
-/

namespace PteSysbench.CkRing

open ActionSystem AtomicObject

/-- `struct ck_ring`. No function for a single producer uses `p_head`. -/
structure Ring where
  cHead : UInt32
  pTail : UInt32
  size : UInt32
  mask : UInt32

def ckRingInit (size : UInt32) : Ring :=
  { cHead := 0, pTail := 0, size, mask := size - 1 }

/-- The `ts` bytes of an entry. -/
abbrev Entry (ts : UInt32) := Fin ts.toNat → UInt8

/-- Where the slot of a counter starts; the product is one of `unsigned int`. -/
def slot (ts : UInt32) (ring : Ring) (counter : UInt32) : Nat :=
  (ts * (counter &&& ring.mask)).toNat

/-- Where `_ck_ring_enqueue_sp` is, with its local variables. -/
inductive ProducerPc (ts : UInt32) where
  | idle
  | loadHead (entry : Entry ts)
  | loadTail (entry : Entry ts) (consumer : UInt32)
  | copy (entry : Entry ts) (producer delta : UInt32) (copied : Fin ts.toNat → Bool)
  | returning (rc : Bool)

/-- Where `_ck_ring_dequeue_mc` is. `data` has the bytes of this round's copy. -/
inductive ConsumerPc (ts : UInt32) where
  | idle
  | loadHead
  | loadTail (consumer : UInt32)
  | copy (consumer : UInt32) (data : Fin ts.toNat → Option UInt8)
  | returning (data : Option (Entry ts))

/-- Where `ck_ring_size` is. -/
inductive WatcherPc where
  | loadHead
  | loadTail (c : UInt32)

/-- A returned size, with the length at the first load and what came in before the second. -/
structure Report where
  value : UInt32
  length : Nat
  stored : Nat

/-- `accepted` and what follows it are history: the entries whose store of `p_tail`
was done, the number of exchanges of `c_head`, what these were when a party loaded
`c_head` last, how often an exchange of a consumer failed and succeeded, and the
returned sizes. -/
structure State (ts : UInt32) (Consumer Watcher : Type) where
  ring : Ring
  buffer : Nat → UInt8
  producer : ProducerPc ts
  consumer : Consumer → ConsumerPc ts
  watcher : Watcher → WatcherPc
  accepted : List (Entry ts)
  dequeues : Nat
  producerSaw : Nat
  consumerSaw : Consumer → Nat
  watcherSaw : Watcher → Nat × Nat
  retries : Consumer → Nat
  takes : Consumer → Nat
  reports : List Report

inductive Action (ts : UInt32) (Consumer Watcher : Type) where
  | enqueue (entry : Entry ts)
  | producer
  | producerCopy (i : Fin ts.toNat)
  | dequeue (c : Consumer)
  | consumer (c : Consumer)
  | consumerCopy (c : Consumer) (i : Fin ts.toNat)
  | watcher (w : Watcher)

variable {ts : UInt32} {Consumer Watcher : Type}

def State.produce (s : State ts Consumer Watcher) (pc : ProducerPc ts) :
    State ts Consumer Watcher :=
  { s with producer := pc }

def State.consume [DecidableEq Consumer] (s : State ts Consumer Watcher) (c : Consumer)
    (pc : ConsumerPc ts) : State ts Consumer Watcher :=
  { s with consumer := Function.update s.consumer c pc }

def enqueueCall (s : State ts Consumer Watcher) (entry : Entry ts) :
    Option (State ts Consumer Watcher) :=
  match s.producer with
  | .idle => some (s.produce (.loadHead entry))
  | _ => none

/-- `_ck_ring_enqueue_sp`. -/
def producerStep (s : State ts Consumer Watcher) : Option (State ts Consumer Watcher) :=
  match s.producer with
  | .idle => none
  | .loadHead entry =>
      some { s.produce (.loadTail entry s.ring.cHead) with producerSaw := s.dequeues }
  | .loadTail entry consumer =>
      let producer := s.ring.pTail
      let delta := producer + 1
      if delta &&& s.ring.mask = consumer &&& s.ring.mask then some (s.produce (.returning false))
      else some (s.produce (.copy entry producer delta fun _ => false))
  | .copy entry _ delta copied =>
      if ∀ i, copied i = true then
        some { s.produce (.returning true) with
          ring := { s.ring with pTail := delta }
          accepted := s.accepted ++ [entry] }
      else none
  | .returning _ => some (s.produce .idle)

def producerCopy (s : State ts Consumer Watcher) (i : Fin ts.toNat) :
    Option (State ts Consumer Watcher) :=
  match s.producer with
  | .copy entry producer delta copied =>
      some { s.produce (.copy entry producer delta (Function.update copied i true)) with
        buffer := Function.update s.buffer (slot ts s.ring producer + i) (entry i) }
  | _ => none

section Consumers
variable [DecidableEq Consumer]

def dequeueCall (s : State ts Consumer Watcher) (c : Consumer) :
    Option (State ts Consumer Watcher) :=
  match s.consumer c with
  | .idle => some (s.consume c .loadHead)
  | _ => none

/-- `_ck_ring_dequeue_mc`. The exchange that fails leaves the head it met in `consumer`. -/
def consumerStep (s : State ts Consumer Watcher) (c : Consumer) :
    Option (State ts Consumer Watcher) :=
  match s.consumer c with
  | .idle => none
  | .loadHead =>
      some { s.consume c (.loadTail s.ring.cHead) with
        consumerSaw := Function.update s.consumerSaw c s.dequeues }
  | .loadTail consumer =>
      let producer := s.ring.pTail
      if consumer = producer then some (s.consume c (.returning none))
      else some (s.consume c (.copy consumer fun _ => none))
  | .copy consumer data =>
      if ∀ i, (data i).isSome then
        if s.ring.cHead = consumer then
          some { s.consume c (.returning (some fun i => (data i).getD 0)) with
            ring := { s.ring with cHead := consumer + 1 }
            dequeues := s.dequeues + 1
            takes := Function.update s.takes c (s.takes c + 1) }
        else
          some { s.consume c (.loadTail s.ring.cHead) with
            consumerSaw := Function.update s.consumerSaw c s.dequeues
            retries := Function.update s.retries c (s.retries c + 1) }
      else none
  | .returning _ => some (s.consume c .idle)

def consumerCopy (s : State ts Consumer Watcher) (c : Consumer) (i : Fin ts.toNat) :
    Option (State ts Consumer Watcher) :=
  match s.consumer c with
  | .copy consumer data =>
      some (s.consume c (.copy consumer
        (Function.update data i (some (s.buffer (slot ts s.ring consumer + i))))))
  | _ => none

/-- `ck_ring_size`. -/
def watcherStep [DecidableEq Watcher] (s : State ts Consumer Watcher) (w : Watcher) :
    State ts Consumer Watcher :=
  match s.watcher w with
  | .loadHead =>
      { s with
        watcher := Function.update s.watcher w (.loadTail s.ring.cHead)
        watcherSaw := Function.update s.watcherSaw w (s.dequeues, s.accepted.length) }
  | .loadTail c =>
      let (dequeues, accepted) := s.watcherSaw w
      { s with
        watcher := Function.update s.watcher w .loadHead
        reports := s.reports ++ [{
          value := (s.ring.pTail - c) &&& s.ring.mask
          length := accepted - dequeues
          stored := s.accepted.length - accepted }] }

variable [DecidableEq Watcher]

def step (s : State ts Consumer Watcher) :
    Action ts Consumer Watcher → Option (State ts Consumer Watcher)
  | .enqueue entry => enqueueCall s entry
  | .producer => producerStep s
  | .producerCopy i => producerCopy s i
  | .dequeue c => dequeueCall s c
  | .consumer c => consumerStep s c
  | .consumerCopy c i => consumerCopy s c i
  | .watcher w => some (watcherStep s w)
end Consumers

/-- Before the first call; the buffer may hold anything. -/
def start (ts size : UInt32) (Consumer Watcher : Type) (buffer : Nat → UInt8) :
    State ts Consumer Watcher :=
  { ring := ckRingInit size, buffer, producer := .idle, consumer := fun _ => .idle
    watcher := fun _ => .loadHead, accepted := [], dequeues := 0, producerSaw := 0
    consumerSaw := fun _ => 0, watcherSaw := fun _ => (0, 0), retries := fun _ => 0
    takes := fun _ => 0, reports := [] }

inductive Party (Consumer : Type) where
  | producer
  | consumer (c : Consumer)
  deriving DecidableEq

/-- The calls and what they return. -/
def shows (s : State ts Consumer Watcher) : Action ts Consumer Watcher →
    Option (Event (Party Consumer) (QueueOperation (Entry ts)) (QueueResult (Entry ts)))
  | .enqueue entry => some (.call .producer (.enqueue entry))
  | .dequeue c => some (.call (.consumer c) .dequeue)
  | .producer =>
      match s.producer with
      | .returning rc => some (.answer .producer (.accepted rc))
      | _ => none
  | .consumer c =>
      match s.consumer c with
      | .returning data => some (.answer (.consumer c) (.taken data))
      | _ => none
  | _ => none

def ConsumerPc.attempting : ConsumerPc ts → Bool
  | .loadTail _ | .copy _ _ => true
  | _ => false

/-- Fewer than `2 ^ 32` entries come in past the head that a consumer has loaded, while it uses
it. -/
def Fresh (s : State ts Consumer Watcher) : Action ts Consumer Watcher → Prop
  | .consumer c =>
      (s.consumer c).attempting = true → s.accepted.length < s.consumerSaw c + 2 ^ 32
  | _ => True

/-! Counters that wrap at `2 ^ 32`. -/
section Counters
variable {x y mask : UInt32} {n m k : Nat}

def Counts (x : UInt32) (n : Nat) : Prop := x.toNat = n % 2 ^ 32

theorem counts_succ (counts : Counts x n) : Counts (x + 1) (n + 1) := by
  unfold Counts at *
  rw [UInt32.toNat_add, counts, UInt32.toNat_one, Nat.mod_add_mod]

theorem counts_inj (first : Counts x n) (second : Counts y m) (below : n ≤ m)
    (near : m < n + 2 ^ 32) : x = y ↔ n = m := by
  unfold Counts at *
  rw [← UInt32.toNat_inj, first, second]
  omega

theorem masked (small : k ≤ 31) (ones : mask.toNat = 2 ^ k - 1) (counts : Counts x n) :
    (x &&& mask).toNat = n % 2 ^ k := by
  rw [UInt32.toNat_and, ones, Nat.and_two_pow_sub_one_eq_mod, counts]
  exact Nat.mod_mod_of_dvd n (Nat.pow_dvd_pow 2 (by omega))

theorem masked_sub (small : k ≤ 31) (ones : mask.toNat = 2 ^ k - 1) (first : Counts x n)
    (second : Counts y m) (below : m ≤ n) : ((x - y) &&& mask).toNat = (n - m) % 2 ^ k := by
  refine masked small ones ?_
  unfold Counts at *
  rw [UInt32.toNat_sub, first, second]
  omega

/-- Positions less than a round apart have places of their own. -/
theorem place_inj {size : Nat} (below : n ≤ m) (near : m < n + size)
    (same : n % size = m % size) : n = m := by
  have none_left : (m - n) % size = 0 := Nat.sub_mod_eq_zero_of_mod_eq same.symm
  rw [Nat.mod_eq_of_lt (by omega)] at none_left
  omega

theorem round_iff {size : Nat} (below : n < m) (near : m ≤ n + size) :
    m % size = n % size ↔ m = n + size := by
  constructor
  · intro same
    by_contra other
    have := place_inj below.le (by omega) same.symm
    omega
  · rintro rfl
    exact Nat.add_mod_right n size
end Counters

/-! The slots of the buffer. -/
section Slots
variable {k n m : Nat} {ring : Ring} {x : UInt32}

theorem slot_eq (small : k ≤ 31) (ones : ring.mask.toNat = 2 ^ k - 1)
    (fits : ts.toNat * 2 ^ k ≤ 2 ^ 32) (counts : Counts x n) :
    slot ts ring x = ts.toNat * (n % 2 ^ k) := by
  have within : ts.toNat * (n % 2 ^ k) < 2 ^ 32 := by
    rcases Nat.eq_zero_or_pos ts.toNat with nothing | some_
    · simp [nothing]
    · have place : n % 2 ^ k < 2 ^ k := Nat.mod_lt n (Nat.two_pow_pos k)
      exact Nat.lt_of_lt_of_le ((Nat.mul_lt_mul_left some_).mpr place) fits
  rw [slot, UInt32.toNat_mul, masked small ones counts, Nat.mod_eq_of_lt within]

theorem byte_inj {a b : Nat} {i j : Fin ts.toNat}
    (same : ts.toNat * a + i = ts.toNat * b + j) : a = b := by
  have some_ : 0 < ts.toNat := i.pos
  have quotient : (ts.toNat * a + i) / ts.toNat = (ts.toNat * b + j) / ts.toNat := by rw [same]
  rwa [Nat.mul_add_div some_, Nat.mul_add_div some_, Nat.div_eq_of_lt i.isLt,
    Nat.div_eq_of_lt j.isLt, Nat.add_zero, Nat.add_zero] at quotient

/-- The slot of position `n` has the bytes of the entry. -/
def Holds (k : Nat) (buffer : Nat → UInt8) (n : Nat) (entry : Entry ts) : Prop :=
  ∀ i : Fin ts.toNat, buffer (ts.toNat * (n % 2 ^ k) + i) = entry i

theorem holds_update {buffer : Nat → UInt8} {entry : Entry ts} (holds : Holds k buffer n entry)
    (apart : n % 2 ^ k ≠ m % 2 ^ k) (i : Fin ts.toNat) (byte : UInt8) :
    Holds k (Function.update buffer (ts.toNat * (m % 2 ^ k) + i) byte) n entry := by
  intro j
  rw [Function.update_of_ne fun same => apart (byte_inj same)]
  exact holds j
end Slots
end PteSysbench.CkRing
