import PteSysbench.OptionValues
import PteSysbench.ReportSchedule
import Mathlib.Algebra.Group.Int.Defs

/-!
`--report-checkpoints`: how `init` reads and sorts the values, and the reports that
`checkpoints_thread_proc` makes of them.
-/

namespace PteSysbench.ReportCheckpoints

open OptionRegistry OptionValues ReportSchedule

def maxCheckpoints : Nat := 256

inductive InitError where
  | invalidValue (value : Text)
  | tooMany
  /-- A store behind the end of the array. -/
  | outOfBounds
  deriving DecidableEq

def InitError.message : InitError → Option Text
  | .invalidValue value =>
      some (text "Invalid value for --report-checkpoints: '" ++ value ++ text "'")
  | .tooMany => some (text
      "Too many checkpoints in --report-checkpoints (up to 256 can be defined)")
  | .outOfBounds => none

/-- `checkpoints` and `n_checkpoints` of `sb_globals`. -/
structure Globals where
  checkpoints : List Nat
  nCheckpoints : Nat
  deriving DecidableEq, Repr

def Globals.store (globals : Globals) (i value : Nat) : Except InitError Globals :=
  if i < globals.checkpoints.length then
    .ok { globals with checkpoints := globals.checkpoints.set i value }
  else .error .outOfBounds

/-- The array that is filled, and the numbers in it. -/
def Globals.stored (globals : Globals) : List Nat :=
  globals.checkpoints.take globals.nCheckpoints

/-- The body of the loop over the values. -/
def addCheckpoint (globals : Globals) (value : Text) : Except InitError Globals :=
  let (res, endptr) := strtol value
  if endptr ≠ [] ∨ res < 0 ∨ 2 ^ 31 - 1 < res then .error (.invalidValue value)
  else
    -- counted before the test, stored behind it
    let globals := { globals with nCheckpoints := (globals.nCheckpoints + 1) % 2 ^ 32 }
    if maxCheckpoints < globals.nCheckpoints then .error .tooMany
    else globals.store (globals.nCheckpoints - 1) (res % 2 ^ 32).toNat

/-- `unsigned int` numbers, their difference taken as an `int`. -/
def checkpointCmp (a b : Nat) : Int := Int.bmod ((a : Int) - b) (2 ^ 32)

/-- What `qsort` expects of a comparison on the elements it sorts. -/
structure Orders (cmp : Nat → Nat → Int) (array : List Nat) : Prop where
  equal : ∀ a ∈ array, ∀ b ∈ array, cmp a b = 0 ↔ a = b
  swap : ∀ a ∈ array, ∀ b ∈ array, cmp a b < 0 ↔ 0 < cmp b a
  trans : ∀ a ∈ array, ∀ b ∈ array, ∀ c ∈ array, cmp a b ≤ 0 → cmp b c ≤ 0 → cmp a c ≤ 0

/-- `qsort` of the C library. Nothing is known of it for other comparisons. -/
structure Qsort where
  sort : (Nat → Nat → Int) → List Nat → List Nat
  perm : ∀ cmp array, Orders cmp array → (sort cmp array).Perm array
  sorted : ∀ cmp array, Orders cmp array →
    (sort cmp array).Pairwise fun a b => cmp a b ≤ 0

/-- The values of the option, from an array of zeros. -/
def readCheckpoints (values : List Text) : Except InitError Globals :=
  values.foldlM addCheckpoint { checkpoints := List.replicate maxCheckpoints 0, nCheckpoints := 0 }

def sortCheckpoints (qsort : Qsort) (globals : Globals) : Globals :=
  if 0 < globals.nCheckpoints then
    { globals with
      checkpoints := qsort.sort checkpointCmp globals.stored ++
        globals.checkpoints.drop globals.nCheckpoints }
  else globals

def initCheckpoints (qsort : Qsort) (values : List Text) : Except InitError Globals :=
  (readCheckpoints values).map (sortCheckpoints qsort)

/-! The thread. -/
section Thread

/-- How long the thread takes before it reads the clock, beyond the end of its sleep, and
before it logs the time. A sleep is never short. -/
structure Delay where
  read : Nat
  overslept : Nat
  log : Nat

/-- What the thread does about one checkpoint: the clock it reads, and the time it logs. -/
structure Visit where
  checkpoint : Nat
  curr : Nat
  logged : Option Nat
  deriving DecidableEq, Repr

/-- The loop from index `i` on. -/
def checkpointsLoop (delays : Nat → Delay) (i now : Nat) : List Nat → List Visit
  | [] => []
  | checkpoint :: rest =>
      let next := sec2ns checkpoint
      let curr := now + (delays i).read
      if next ≤ curr then
        -- `continue`: nothing is slept or logged
        { checkpoint, curr, logged := none } :: checkpointsLoop delays (i + 1) curr rest
      else
        let logged := curr + (next - curr) + (delays i).overslept + (delays i).log
        { checkpoint, curr, logged := some logged } :: checkpointsLoop delays (i + 1) logged rest

/-- `checkpoints_thread_proc` from the start of the reports. -/
def checkpointsThreadProc (globals : Globals) (delays : Nat → Delay) (start : Nat) : List Visit :=
  checkpointsLoop delays 0 start globals.stored

/-- The checkpoints reported, in the order of their reports. -/
def reported (visits : List Visit) : List Nat :=
  (visits.filter fun visit => visit.logged.isSome).map Visit.checkpoint

end Thread

/-! What is stored. -/
section Stored

/-- A value that the checks let through. -/
def Valid (value : Text) : Prop :=
  (strtol value).2 = [] ∧ 0 ≤ (strtol value).1 ∧ (strtol value).1 ≤ 2 ^ 31 - 1

def number (value : Text) : Nat := (strtol value).1.toNat

/-- The values so far are at the beginning of the array. -/
structure Filled (values : List Text) (globals : Globals) : Prop where
  valid : ∀ value ∈ values, Valid value
  length : globals.checkpoints.length = maxCheckpoints
  count : globals.nCheckpoints = values.length
  few : values.length ≤ maxCheckpoints
  stored : globals.stored = values.map number

theorem add_checkpoint_filled {values : List Text} {globals : Globals} (value : Text)
    (filled : Filled values globals) :
    match addCheckpoint globals value with
    | .ok after => Filled (values ++ [value]) after
    | .error error => error ≠ .outOfBounds ∧ (Valid value → values.length = maxCheckpoints) := by
  obtain ⟨valid, length, count, few, stored⟩ := filled
  rw [maxCheckpoints] at length few
  have counted : (globals.nCheckpoints + 1) % 2 ^ 32 = values.length + 1 := by omega
  unfold addCheckpoint
  simp only [counted]
  by_cases refused : (strtol value).2 ≠ [] ∨ (strtol value).1 < 0 ∨ 2 ^ 31 - 1 < (strtol value).1
  · rw [if_pos refused]
    refine ⟨nofun, fun ⟨whole, low, high⟩ => ?_⟩
    rcases refused with rest | small | large
    · exact absurd whole rest
    · omega
    · omega
  · have accepted : Valid value :=
      ⟨by_contra fun rest => refused (.inl rest), by omega, by omega⟩
    rw [if_neg refused]
    by_cases full : maxCheckpoints < values.length + 1
    · rw [if_pos full]
      rw [maxCheckpoints] at full
      exact ⟨nofun, fun _ => by rw [maxCheckpoints]; omega⟩
    · rw [if_neg full]
      rw [maxCheckpoints] at full
      have inside : values.length < globals.checkpoints.length := by omega
      have kept : ((strtol value).1 % 2 ^ 32).toNat = number value := by
        rw [number, Int.emod_eq_of_lt accepted.2.1 (by have := accepted.2.2; omega)]
      rw [Globals.store, Nat.add_sub_cancel, if_pos inside, kept]
      refine ⟨?_, ?_, ?_, ?_, ?_⟩
      · intro other member
        rcases List.mem_append.mp member with earlier | single
        · exact valid other earlier
        · exact List.mem_singleton.mp single ▸ accepted
      · rw [List.length_set, length, maxCheckpoints]
      · rw [List.length_append, List.length_singleton]
      · rw [List.length_append, List.length_singleton, maxCheckpoints]
        omega
      · rw [Globals.stored, count] at stored
        rw [Globals.stored, List.take_add_one, List.take_set_of_le (Nat.le_refl _), stored,
          List.getElem?_set_self inside, List.map_append]
        rfl

theorem add_all_filled {values : List Text} {globals : Globals} (rest : List Text)
    (filled : Filled values globals) :
    match rest.foldlM addCheckpoint globals with
    | .ok after => Filled (values ++ rest) after
    | .error error => error ≠ .outOfBounds := by
  induction rest generalizing values globals with
  | nil =>
      rw [List.append_nil]
      exact filled
  | cons value rest ih =>
      have step := add_checkpoint_filled value filled
      rw [List.foldlM_cons]
      cases added : addCheckpoint globals value with
      | error error =>
          rw [added] at step
          exact step.1
      | ok after =>
          rw [added] at step
          have later := ih step
          rw [List.append_assoc] at later
          exact later

theorem read_filled (values : List Text) :
    match readCheckpoints values with
    | .ok globals => Filled values globals
    | .error error => error ≠ .outOfBounds := by
  have empty : Filled []
      { checkpoints := List.replicate maxCheckpoints 0, nCheckpoints := 0 } :=
    { valid := nofun, length := List.length_replicate, count := rfl, few := Nat.zero_le _
      stored := rfl }
  exact add_all_filled values empty

theorem number_small {value : Text} (valid : Valid value) : number value < 2 ^ 31 := by
  obtain ⟨-, low, high⟩ := valid
  rw [number]
  omega
end Stored

/-! The order. -/
section Order
variable {array : List Nat}

theorem cmp_small {a b : Nat} (small : a < 2 ^ 31) (other : b < 2 ^ 31) :
    checkpointCmp a b = (a : Int) - b := by
  rw [checkpointCmp, Int.bmod_eq_of_le (by omega) (by omega)]

/-- Below 2^31 the difference fits in an `int`. -/
theorem cmp_orders (small : ∀ a ∈ array, a < 2 ^ 31) : Orders checkpointCmp array := by
  constructor
  · intro a first b second
    rw [cmp_small (small a first) (small b second)]
    omega
  · intro a first b second
    rw [cmp_small (small a first) (small b second), cmp_small (small b second) (small a first)]
    omega
  · intro a first b second c third
    rw [cmp_small (small a first) (small b second), cmp_small (small b second) (small c third),
      cmp_small (small a first) (small c third)]
    omega

theorem sort_sorted (qsort : Qsort) (small : ∀ a ∈ array, a < 2 ^ 31) :
    (qsort.sort checkpointCmp array).Perm array ∧
      (qsort.sort checkpointCmp array).Pairwise (· ≤ ·) := by
  have orders := cmp_orders small
  have perm := qsort.perm checkpointCmp array orders
  refine ⟨perm, (qsort.sorted checkpointCmp array orders).imp_of_mem ?_⟩
  intro a b first second below
  rw [cmp_small (small a (perm.subset first)) (small b (perm.subset second))] at below
  omega

/-- What the thread finds in the array. -/
theorem sorted_stored {values : List Text} {globals : Globals} (qsort : Qsort)
    (filled : Filled values globals) :
    (sortCheckpoints qsort globals).stored.Perm (values.map number) ∧
      (sortCheckpoints qsort globals).stored.Pairwise (· ≤ ·) := by
  obtain ⟨valid, length, count, few, stored⟩ := filled
  by_cases some_ : 0 < globals.nCheckpoints
  · have small : ∀ a ∈ values.map number, a < 2 ^ 31 := by
      intro a member
      obtain ⟨value, there, rfl⟩ := List.mem_map.mp member
      exact number_small (valid value there)
    obtain ⟨perm, sorted⟩ := sort_sorted qsort small
    have whole : globals.nCheckpoints = (qsort.sort checkpointCmp (values.map number)).length := by
      rw [perm.length_eq, List.length_map, count]
    have found : (sortCheckpoints qsort globals).stored =
        qsort.sort checkpointCmp (values.map number) := by
      rw [sortCheckpoints, if_pos some_, Globals.stored, stored]
      dsimp only
      rw [whole, List.take_left]
    rw [found]
    exact ⟨perm, sorted⟩
  · have none_ : values.map number = [] := by
      rw [List.map_eq_nil_iff, ← List.length_eq_zero_iff, ← count]
      omega
    rw [sortCheckpoints, if_neg some_, stored, none_]
    exact ⟨List.Perm.refl _, List.Pairwise.nil⟩
end Order

/-! Reports. -/
section Reports
variable {delays : Nat → Delay}

/-- What is reported of one checkpoint. -/
structure Timely (visit : Visit) : Prop where
  iff_ahead : visit.logged.isSome = true ↔ visit.curr < sec2ns visit.checkpoint
  notEarly : ∀ time, visit.logged = some time → sec2ns visit.checkpoint ≤ time

theorem loop_visits (i now : Nat) (checkpoints : List Nat) :
    (checkpointsLoop delays i now checkpoints).map Visit.checkpoint = checkpoints := by
  induction checkpoints generalizing i now with
  | nil => rfl
  | cons checkpoint rest ih =>
      rw [checkpointsLoop]
      dsimp only
      split
      · rw [List.map_cons, ih]
      · rw [List.map_cons, ih]

theorem loop_timely (i now : Nat) (checkpoints : List Nat) :
    ∀ visit ∈ checkpointsLoop delays i now checkpoints, now ≤ visit.curr ∧ Timely visit := by
  induction checkpoints generalizing i now with
  | nil => exact nofun
  | cons checkpoint rest ih =>
      intro visit member
      rw [checkpointsLoop] at member
      dsimp only at member
      split at member
      next past =>
        rcases List.mem_cons.mp member with rfl | later
        · exact ⟨Nat.le_add_right .., by simp; omega, nofun⟩
        · obtain ⟨after, timely⟩ := ih _ _ visit later
          exact ⟨Nat.le_trans (Nat.le_add_right ..) after, timely⟩
      next ahead =>
        rcases List.mem_cons.mp member with rfl | later
        · refine ⟨Nat.le_add_right .., by simp; omega, fun time logged => ?_⟩
          obtain rfl := Option.some.inj logged
          show sec2ns checkpoint ≤ _
          omega
        · obtain ⟨after, timely⟩ := ih _ _ visit later
          exact ⟨by omega, timely⟩

/-- Nothing is reported again once the clock has passed it. -/
theorem reported_ahead {i now checkpoint : Nat} {checkpoints : List Nat}
    (member : checkpoint ∈ reported (checkpointsLoop delays i now checkpoints)) :
    now < sec2ns checkpoint := by
  obtain ⟨visit, kept, rfl⟩ := List.mem_map.mp member
  obtain ⟨inLoop, logged⟩ := List.mem_filter.mp kept
  obtain ⟨after, timely⟩ := loop_timely i now checkpoints visit inLoop
  exact Nat.lt_of_le_of_lt after (timely.iff_ahead.mp logged)

theorem reported_increasing (i now : Nat) (checkpoints : List Nat) :
    (reported (checkpointsLoop delays i now checkpoints)).Pairwise fun a b =>
      sec2ns a < sec2ns b := by
  induction checkpoints generalizing i now with
  | nil => exact List.Pairwise.nil
  | cons checkpoint rest ih =>
      rw [checkpointsLoop]
      dsimp only
      split
      next past => exact ih _ _
      next ahead =>
        refine List.pairwise_cons.mpr ⟨fun other member => ?_, ih _ _⟩
        -- the sleep ended at this checkpoint or later, and the others lie ahead of that
        have later := reported_ahead member
        show sec2ns checkpoint < sec2ns other
        omega

theorem reported_sublist (visits : List Visit) :
    (reported visits).Sublist (visits.map Visit.checkpoint) :=
  List.filter_sublist.map Visit.checkpoint

theorem sec2ns_small {sec : Nat} (small : sec < 2 ^ 31) : sec2ns sec = sec * 1000000000 :=
  Nat.mod_eq_of_lt (by omega)

/-- The reports of a list of checkpoints that fit in an `int`. -/
structure Reported (checkpoints : List Nat) (visits : List Visit) : Prop where
  inOrder : visits.map Visit.checkpoint = checkpoints
  timely : ∀ visit ∈ visits, Timely visit
  increasing : (reported visits).Pairwise (· < ·)

theorem thread_reported {globals : Globals} (small : ∀ a ∈ globals.stored, a < 2 ^ 31)
    (start : Nat) : Reported globals.stored (checkpointsThreadProc globals delays start) := by
  have visits := @loop_visits delays 0 start globals.stored
  refine ⟨visits, fun visit member => (loop_timely 0 start _ visit member).2, ?_⟩
  refine (reported_increasing 0 start globals.stored).imp_of_mem fun first second earlier => ?_
  have inside := (reported_sublist (checkpointsLoop delays 0 start globals.stored)).subset
  rw [visits] at inside
  rw [sec2ns_small (small _ (inside first)), sec2ns_small (small _ (inside second))] at earlier
  exact Nat.lt_of_mul_lt_mul_right earlier
end Reports

/-- Whatever the option says, the array is filled within its bounds; and if `init` accepts
it, it is sorted by a comparison that is an order there, and the reports follow it. -/
theorem checkpoints_reported (qsort : Qsort) (values : List Text) :
    initCheckpoints qsort values ≠ .error .outOfBounds ∧
      (maxCheckpoints < values.length → ∃ error, initCheckpoints qsort values = .error error) ∧
      ∀ globals, initCheckpoints qsort values = .ok globals →
        globals.stored.Perm (values.map number) ∧
        Orders checkpointCmp globals.stored ∧
        globals.stored.Pairwise (· ≤ ·) ∧
        ∀ delays start,
          Reported globals.stored (checkpointsThreadProc globals delays start) := by
  have filled := read_filled values
  unfold initCheckpoints
  cases read : readCheckpoints values with
  | error error =>
      rw [read] at filled
      exact ⟨fun same => filled (Except.error.inj same), fun _ => ⟨error, rfl⟩, nofun⟩
  | ok before =>
      rw [read] at filled
      dsimp only at filled
      refine ⟨nofun, fun long => absurd filled.few (Nat.not_le.mpr long), ?_⟩
      intro globals accepted
      obtain rfl := Except.ok.inj accepted
      obtain ⟨perm, sorted⟩ := sorted_stored qsort filled
      have small : ∀ a ∈ (sortCheckpoints qsort before).stored, a < 2 ^ 31 := by
        intro a member
        obtain ⟨value, there, rfl⟩ := List.mem_map.mp (perm.subset member)
        exact number_small (filled.valid value there)
      exact ⟨perm, cmp_orders small, sorted, fun delays start => thread_reported small start⟩

/-- A `qsort` there is: it compares no numbers but those of the array. -/
def mergeQsort : Qsort where
  sort cmp array := (array.attach.mergeSort fun a b => cmp a.val b.val ≤ 0).map Subtype.val
  perm cmp array _ := by
    have perm := (List.mergeSort_perm array.attach fun a b => cmp a.val b.val ≤ 0).map Subtype.val
    rwa [List.attach_map_subtype_val] at perm
  sorted cmp array orders := by
    rw [List.pairwise_map]
    refine (List.pairwise_mergeSort (fun a b c first second => ?_) (fun a b => ?_) _).imp ?_
    · rw [decide_eq_true_iff] at first second ⊢
      exact orders.trans _ a.property _ b.property _ c.property first second
    · have swap := orders.swap _ b.property _ a.property
      rw [Bool.or_eq_true, decide_eq_true_iff, decide_eq_true_iff]
      omega
    · exact fun below => of_decide_eq_true below

theorem checkpoints_reported_three :
    initCheckpoints mergeQsort [text "3", text "1", text "3"] =
        .ok (sortCheckpoints mergeQsort ⟨3 :: 1 :: 3 :: List.replicate 253 0, 3⟩) ∧
      (sortCheckpoints mergeQsort ⟨3 :: 1 :: 3 :: List.replicate 253 0, 3⟩).stored.Pairwise
        (· ≤ ·) := by
  have three : strtol (text "3") = (3, []) := by decide
  have one : strtol (text "1") = (1, []) := by decide
  have split : List.replicate maxCheckpoints 0 = 0 :: 0 :: 0 :: List.replicate 253 0 := rfl
  have read : readCheckpoints [text "3", text "1", text "3"] =
      .ok ⟨3 :: 1 :: 3 :: List.replicate 253 0, 3⟩ := by
    rw [readCheckpoints, split]
    generalize List.replicate 253 0 = rest
    simp [addCheckpoint, three, one, Globals.store, maxCheckpoints]
    rfl
  have accepted : initCheckpoints mergeQsort [text "3", text "1", text "3"] =
      .ok (sortCheckpoints mergeQsort ⟨3 :: 1 :: 3 :: List.replicate 253 0, 3⟩) := by
    rw [initCheckpoints, read]
    rfl
  exact ⟨accepted, ((checkpoints_reported mergeQsort _).2.2 _ accepted).2.2.1⟩

end PteSysbench.ReportCheckpoints
