import PteSysbench.AtomicObject
import PteSysbench.EventLoop

/-!
The 64-bit primitives of `sb_ck_pr.h`, for machines whose words have 32 bits. What the
compiler's builtins do is one step; the plain load of `ck_pr_md_load_64` reads the two
halves of its target in two steps, in either order.
-/

namespace PteSysbench.SbCkPr

open ActionSystem AtomicObject

/-- CK_PR_GENERATE. -/
inductive Binary where
  | add
  | sub
  | and
  | or
  | xor
  deriving DecidableEq

inductive Operation where
  | binary (kind : Binary) (d : UInt64)
  | inc
  | dec
  | cas (compare set : UInt64)
  | casValue (compare set : UInt64)
  | faa (delta : UInt64)
  | fas (update : UInt64)
  deriving DecidableEq

/-- `casValue` returns through its pointer what it met, also when it succeeds. -/
inductive Result where
  | nothing
  | swapped (z : Bool)
  | met (value : UInt64) (z : Bool)
  | previous (value : UInt64)
  deriving DecidableEq

/-- `__sync_fetch_and_` with the kind. -/
def syncFetchAnd : Binary → UInt64 → UInt64 → UInt64
  | .add, target, d => target + d
  | .sub, target, d => target - d
  | .and, target, d => target &&& d
  | .or, target, d => target ||| d
  | .xor, target, d => target ^^^ d

/-- What a caller takes the primitives for. -/
def word (initial : UInt64) : Object UInt64 Operation Result where
  start := initial
  apply target
    | .binary kind d => (syncFetchAnd kind target d, .nothing)
    | .inc => (target + 1, .nothing)
    | .dec => (target - 1, .nothing)
    | .cas compare set =>
        if target = compare then (set, .swapped true) else (target, .swapped false)
    | .casValue compare set =>
        if target = compare then (set, .met target true) else (target, .met target false)
    | .faa delta => (target + delta, .previous target)
    | .fas update => (update, .previous target)

/-- The loops of CK_PR_FAA and CK_PR_FAS; `load` has the halves read so far. -/
inductive Pc where
  | idle
  | called (operation : Operation)
  | load (operation : Operation) (low high : Option UInt32)
  | swap (operation : Operation) (previous : UInt64)
  | returning (result : Result)
  deriving DecidableEq

/-- `changes` counts the steps that changed the target, `own` those of one party; `saw` is
`changes` at the first look that `previous` rests on, `retries` counts failed exchanges. -/
structure State (Party : Type) where
  target : UInt64
  pc : Party → Pc
  changes : Nat
  own : Party → Nat
  saw : Party → Nat
  retries : Party → Nat

inductive Half where
  | low
  | high
  deriving DecidableEq

inductive Action (Party : Type) where
  | call (p : Party) (operation : Operation)
  | load (p : Party) (half : Half)
  | next (p : Party)

variable {Party : Type} [DecidableEq Party]

def State.goto (s : State Party) (p : Party) (pc : Pc) : State Party :=
  { s with pc := Function.update s.pc p pc }

theorem goto_self (s : State Party) (p : Party) (pc : Pc) : (s.goto p pc).pc p = pc :=
  Function.update_self _ _ _

theorem goto_other (s : State Party) (p : Party) (pc : Pc) {q : Party} (other : q ≠ p) :
    (s.goto p pc).pc q = s.pc q :=
  Function.update_of_ne other _ _

/-- The target is written, and the operation is done but for its return. -/
def State.finish (s : State Party) (p : Party) (target : UInt64) (result : Result) :
    State Party :=
  { s.goto p (.returning result) with
    target }

def lowHalf (value : UInt64) : UInt32 := value.toUInt32

def highHalf (value : UInt64) : UInt32 := (value >>> 32).toUInt32

def joined (low high : UInt32) : UInt64 := high.toUInt64 <<< 32 ||| low.toUInt64

/-- What the exchange of a loop would store over `previous`. -/
def replacement (previous : UInt64) : Operation → UInt64
  | .faa delta => previous + delta
  | .fas update => update
  | _ => previous

/-- A loop starts with its load, everything else is one builtin. -/
def firstStep (s : State Party) (p : Party) (operation : Operation) : State Party :=
  match operation with
  | .faa _ | .fas _ => s.goto p (.load operation none none)
  | .inc => s.finish p (syncFetchAnd .add s.target 1) .nothing
  | .dec => s.finish p (syncFetchAnd .sub s.target 1) .nothing
  | .binary kind d => s.finish p (syncFetchAnd kind s.target d) .nothing
  | .cas compare set =>
      s.finish p (if s.target = compare then set else s.target) (.swapped (s.target = compare))
  | .casValue compare set =>
      s.finish p (if s.target = compare then set else s.target)
        (.met s.target (s.target = compare))

def nextStep (s : State Party) (p : Party) : Option (State Party) :=
  match s.pc p with
  | .idle => none
  | .called operation => some (firstStep s p operation)
  | .load operation (some low) (some high) => some (s.goto p (.swap operation (joined low high)))
  | .load _ _ _ => none
  | .swap operation previous =>
      if s.target = previous then
        some (s.finish p (replacement previous operation) (.previous previous))
      else
        some { s.goto p (.swap operation s.target) with
          saw := Function.update s.saw p s.changes }
  | .returning _ => some (s.goto p .idle)

def loadStep (s : State Party) (p : Party) (half : Half) : Option (State Party) :=
  match s.pc p, half with
  | .load operation none none, .low =>
      some { s.goto p (.load operation (some (lowHalf s.target)) none) with
        saw := Function.update s.saw p s.changes }
  | .load operation none none, .high =>
      some { s.goto p (.load operation none (some (highHalf s.target))) with
        saw := Function.update s.saw p s.changes }
  | .load operation none (some high), .low =>
      some (s.goto p (.load operation (some (lowHalf s.target)) (some high)))
  | .load operation (some low) none, .high =>
      some (s.goto p (.load operation (some low) (some (highHalf s.target))))
  | _, _ => none

/-- From an exchange to another one. -/
def retried : Pc → Pc → Bool
  | .swap _ _, .swap _ _ => true
  | _, _ => false

/-- The step of a party from `s` to `t`, written into the counts. -/
def State.counted (s t : State Party) (p : Party) : State Party :=
  { t with
    changes := if t.target = s.target then t.changes else t.changes + 1
    own := if t.target = s.target then t.own else Function.update t.own p (t.own p + 1)
    retries :=
      if retried (s.pc p) (t.pc p) then Function.update t.retries p (t.retries p + 1)
      else t.retries }

def step (s : State Party) : Action Party → Option (State Party)
  | .call p operation => if s.pc p = .idle then some (s.goto p (.called operation)) else none
  | .load p half => loadStep s p half
  | .next p => (nextStep s p).map fun t => s.counted t p

def start (Party : Type) (initial : UInt64) : State Party :=
  { target := initial, pc := fun _ => .idle, changes := 0, own := fun _ => 0, saw := fun _ => 0
    retries := fun _ => 0 }

def shows (s : State Party) : Action Party → Option (Event Party Operation Result)
  | .call p operation => some (.call p operation)
  | .next p =>
      match s.pc p with
      | .returning result => some (.answer p result)
      | _ => none
  | .load _ _ => none

/-! Every primitive happens at one moment: at its builtin, or at the exchange that ends its
loop, whatever the load has read. -/
section Refinement

def statusOf : Pc → Status Operation Result
  | .idle => .idle
  | .called operation | .load operation _ _ | .swap operation _ => .called operation
  | .returning result => .done result

def atomic (s : State Party) : AtomicState Party UInt64 Operation Result where
  contents := s.target
  status p := statusOf (s.pc p)

/-- Only the two loops come to a load or to an exchange. -/
def LoopOnly : Pc → Prop
  | .load operation _ _ | .swap operation _ =>
      (∃ delta, operation = .faa delta) ∨ ∃ update, operation = .fas update
  | _ => True

variable {s t : State Party} {p : Party} {initial : UInt64}

theorem status_goto (s : State Party) (p : Party) (pc : Pc) :
    (fun q => statusOf ((s.goto p pc).pc q)) =
      Function.update (fun q => statusOf (s.pc q)) p (statusOf pc) := by
  funext q
  by_cases same : q = p
  · rw [same, Function.update_self, goto_self]
  · rw [Function.update_of_ne same, goto_other s p pc same]

theorem silent_goto {pc : Pc} (target : t.target = s.target) (moved : t.pc = (s.goto p pc).pc)
    (status : statusOf pc = statusOf (s.pc p)) :
    Matches (word initial) (atomic s) (atomic t) [] := by
  refine matches_silent (AtomicState.ext target ?_)
  show (fun q => statusOf (t.pc q)) = _
  rw [moved, status_goto, status]
  exact Function.update_eq_self _ _

theorem finish_matched {operation : Operation} {target : UInt64} {result : Result}
    (called : statusOf (s.pc p) = .called operation)
    (applied : (word initial).apply s.target operation = (target, result)) :
    Matches (word initial) (atomic s) (atomic (s.finish p target result)) [] :=
  matches_take p operation result called applied (status_goto s p (.returning result))

theorem first_matched {operation : Operation} (place : s.pc p = .called operation) :
    Matches (word initial) (atomic s) (atomic (firstStep s p operation)) [] := by
  have called : statusOf (s.pc p) = .called operation := by rw [place]; rfl
  cases operation with
  | faa delta | fas update => exact silent_goto rfl rfl (by rw [place]; rfl)
  | inc | dec | binary kind d => exact finish_matched called rfl
  | cas compare set | casValue compare set =>
      refine finish_matched called ?_
      by_cases same : s.target = compare <;> simp [word, same]

theorem next_matched (loops : LoopOnly (s.pc p)) (taken : nextStep s p = some t) :
    Matches (word initial) (atomic s) (atomic t) (shows s (.next p)).toList := by
  cases place : s.pc p <;> simp only [nextStep, place, reduceCtorEq] at taken <;>
    simp only [shows, place, Option.toList_none, Option.toList_some]
  case called operation => exact Option.some.inj taken ▸ first_matched place
  case load operation low high =>
    cases low <;> cases high <;> simp only [reduceCtorEq, Option.some.injEq] at taken
    subst taken
    exact silent_goto rfl rfl (by rw [place]; rfl)
  case swap operation previous =>
    rw [place] at loops
    by_cases same : s.target = previous
    · rw [if_pos same] at taken
      cases taken
      have called : statusOf (s.pc p) = .called operation := by rw [place]; rfl
      refine finish_matched called ?_
      rcases loops with ⟨delta, rfl⟩ | ⟨update, rfl⟩ <;> simp [word, replacement, same]
    · rw [if_neg same] at taken
      cases taken
      exact silent_goto rfl rfl (by rw [place]; rfl)
  case returning result =>
    cases taken
    exact matches_answer (by simp [atomic, place, statusOf]) rfl (status_goto s p .idle)

theorem load_cases {half : Half} (taken : loadStep s p half = some t) :
    ∃ operation low high low' high', s.pc p = .load operation low high ∧ t.target = s.target ∧
      t.pc = (s.goto p (.load operation low' high')).pc := by
  unfold loadStep at taken
  split at taken <;> cases taken <;>
    exact ⟨_, _, _, _, _, by assumption, rfl, rfl⟩

theorem goto_loop_only {pc : Pc} (loops : ∀ q, LoopOnly (s.pc q)) (own : LoopOnly pc)
    (q : Party) : LoopOnly ((s.goto p pc).pc q) := by
  by_cases same : q = p
  · rw [same, goto_self]
    exact own
  · rw [goto_other s p pc same]
    exact loops q

theorem step_loop_only (loops : ∀ q, LoopOnly (s.pc q)) (a : Action Party)
    (taken : step s a = some t) (q : Party) : LoopOnly (t.pc q) := by
  cases a with
  | call p operation =>
      obtain ⟨_, taken⟩ := Option.ite_none_right_eq_some.mp taken
      cases taken
      refine goto_loop_only loops ?_ q
      trivial
  | load p half =>
      obtain ⟨operation, low, high, low', high', place, _, moved⟩ := load_cases taken
      have own := loops p
      rw [place] at own
      rw [moved]
      refine goto_loop_only loops ?_ q
      exact own
  | next p =>
      have own := loops p
      obtain ⟨u, moved, rfl⟩ := Option.map_eq_some_iff.mp taken
      show LoopOnly (u.pc q)
      cases place : s.pc p <;> simp only [nextStep, place, reduceCtorEq] at moved <;>
        rw [place] at own
      case called operation =>
        cases moved
        cases operation <;> refine goto_loop_only loops ?_ q
        case faa delta => exact .inl ⟨delta, rfl⟩
        case fas update => exact .inr ⟨update, rfl⟩
        all_goals trivial
      case load operation low high =>
        cases low <;> cases high <;> simp only [reduceCtorEq, Option.some.injEq] at moved
        subst moved
        refine goto_loop_only loops ?_ q
        exact own
      case swap operation previous =>
        by_cases same : s.target = previous
        · rw [if_pos same] at moved
          cases moved
          refine goto_loop_only loops ?_ q
          trivial
        · rw [if_neg same] at moved
          cases moved
          refine goto_loop_only loops ?_ q
          exact own
      case returning result =>
        cases moved
        refine goto_loop_only loops ?_ q
        trivial

/-- Whatever the interleaving, and however the halves of a load were torn, the callers
see a word whose operations are atomic. -/
theorem primitives_linearizable (initial : UInt64) (schedule : List (Action Party)) :
    Linearizable (word initial) (trace step shows (start Party initial) schedule) := by
  refine linearizable_of_map atomic
    (fun s a t (loops : ∀ q, LoopOnly (s.pc q)) (_ : True) taken =>
      step_loop_only loops a taken) ?_
    (start Party initial) schedule (fun _ => trivial) rfl
    (guarded_of_free _ schedule fun _ _ _ => trivial)
  intro s a t loops _ taken
  cases a with
  | call p operation =>
      obtain ⟨idle, taken⟩ := Option.ite_none_right_eq_some.mp taken
      cases taken
      exact matches_call (by simp [atomic, idle, statusOf]) rfl (status_goto s p _)
  | load p half =>
      obtain ⟨operation, low, high, low', high', place, target, moved⟩ := load_cases taken
      exact silent_goto target moved (by rw [place]; rfl)
  | next p =>
      obtain ⟨u, moved, rfl⟩ := Option.map_eq_some_iff.mp taken
      -- the counts are not seen
      have same : atomic (s.counted u p) = atomic u := rfl
      rw [same]
      exact next_matched (loops p) moved
end Refinement

/-! An exchange fails only where the target has changed since the loop looked. -/
section Progress
variable {s t : State Party} {p : Party}

theorem joined_halves (value : UInt64) : joined (lowHalf value) (highHalf value) = value := by
  have bound := value.toNat_lt
  have places : (32 : UInt64).toNat % 64 = 32 := rfl
  apply UInt64.toNat_inj.mp
  simp only [joined, lowHalf, highHalf, UInt64.toNat_or, UInt64.toNat_shiftLeft,
    UInt32.toNat_toUInt64, UInt64.toNat_toUInt32, UInt64.toNat_shiftRight, places]
  have low : value.toNat % 2 ^ 32 < 2 ^ 32 := Nat.mod_lt _ (by decide)
  have high : value.toNat >>> 32 % 2 ^ 32 = value.toNat / 2 ^ 32 := by
    rw [Nat.shiftRight_eq_div_pow]
    omega
  have whole : (value.toNat / 2 ^ 32) <<< 32 % 2 ^ 64 = (value.toNat / 2 ^ 32) <<< 32 := by
    rw [Nat.shiftLeft_eq]
    omega
  rw [high, whole, ← Nat.shiftLeft_add_eq_or_of_lt low, Nat.shiftLeft_eq]
  omega

/-- What the locals of a loop are, as long as nothing has happened since its first look. -/
def Current (target : UInt64) (unmoved : Prop) : Pc → Prop
  | .load _ low high =>
      unmoved → (∀ half, low = some half → half = lowHalf target) ∧
        ∀ half, high = some half → half = highHalf target
  | .swap _ previous => unmoved → previous = target
  | _ => True

/-- What has happened to a party is no more than what its loop has seen happen. -/
def Paid (changes saw happened : Nat) : Pc → Prop
  | .load _ none none => happened ≤ changes
  | .load _ _ _ | .swap _ _ => saw ≤ changes ∧ happened ≤ saw
  | _ => happened ≤ changes

theorem paid_total {changes saw happened : Nat} {pc : Pc} (paid : Paid changes saw happened pc) :
    happened ≤ changes := by
  unfold Paid at paid
  split at paid
  case h_2 | h_3 => exact Nat.le_trans paid.2 paid.1
  all_goals exact paid

theorem paid_mono {before after saw happened : Nat} {pc : Pc} (more : before ≤ after)
    (paid : Paid before saw happened pc) : Paid after saw happened pc := by
  unfold Paid at *
  split at paid
  case h_2 | h_3 => exact ⟨Nat.le_trans paid.1 more, paid.2⟩
  all_goals exact Nat.le_trans paid more

/-- After another change nothing is asked of a loop that has looked before. -/
theorem current_passed {changes saw happened : Nat} {target : UInt64} {pc : Pc}
    (paid : Paid changes saw happened pc) : Current target (changes + 1 = saw) pc := by
  cases pc with
  | load operation low high =>
      cases low <;> cases high
      · exact fun _ => ⟨nofun, nofun⟩
      all_goals exact fun here => absurd paid.1 (by omega)
  | swap operation previous => exact fun here => absurd paid.1 (by omega)
  | idle | called operation | returning result => trivial

/-- A step that neither changes the target nor repeats an exchange is not counted. -/
theorem counted_same (target : t.target = s.target) (once : retried (s.pc p) (t.pc p) = false) :
    s.counted t p = t := by
  unfold State.counted
  rw [if_pos target, if_pos target, once, if_neg Bool.false_ne_true]

theorem retried_returning (pc : Pc) (result : Result) : retried pc (.returning result) = false := by
  cases pc <;> rfl

variable [Fintype Party]

structure Balanced (s : State Party) : Prop where
  total : ∑ q, s.own q = s.changes
  current : ∀ q, Current s.target (s.changes = s.saw q) (s.pc q)
  paid : ∀ q, Paid s.changes (s.saw q) (s.retries q + s.own q) (s.pc q)

/-- A party that only moves on. -/
theorem own_balanced (balanced : Balanced s) (p : Party) (target : t.target = s.target)
    (changes : t.changes = s.changes) (own : t.own = s.own)
    (others : ∀ q, q ≠ p → t.pc q = s.pc q ∧ t.saw q = s.saw q ∧ t.retries q = s.retries q)
    (current : Current t.target (t.changes = t.saw p) (t.pc p))
    (paid : Paid t.changes (t.saw p) (t.retries p + t.own p) (t.pc p)) : Balanced t where
  total := by rw [own, changes]; exact balanced.total
  current q := by
    by_cases same : q = p
    · rw [same]
      exact current
    · obtain ⟨place, saw, _⟩ := others q same
      rw [place, saw, target, changes]
      exact balanced.current q
  paid q := by
    by_cases same : q = p
    · rw [same]
      exact paid
    · obtain ⟨place, saw, retries⟩ := others q same
      rw [place, saw, changes, own, retries]
      exact balanced.paid q

theorem goto_balanced (balanced : Balanced s) (p : Party) (pc : Pc)
    (current : Current s.target (s.changes = s.saw p) pc)
    (paid : Paid s.changes (s.saw p) (s.retries p + s.own p) pc) : Balanced (s.goto p pc) :=
  own_balanced balanced p rfl rfl rfl (fun q other => ⟨goto_other s p pc other, rfl, rfl⟩)
    (by rw [goto_self]; exact current) (by rw [goto_self]; exact paid)

/-- A step that may leave the target and repeats no exchange. -/
theorem moved_balanced (balanced : Balanced s) (p : Party) (pc : Pc)
    (once : retried (s.pc p) pc = false)
    (current : Current s.target (s.changes = s.saw p) pc)
    (paid : Paid s.changes (s.saw p) (s.retries p + s.own p) pc) :
    Balanced (s.counted (s.goto p pc) p) := by
  have same : s.counted (s.goto p pc) p = s.goto p pc :=
    counted_same rfl (by rw [goto_self]; exact once)
  rw [same]
  exact goto_balanced balanced p pc current paid

theorem finish_balanced (balanced : Balanced s) (p : Party) (target : UInt64) (result : Result) :
    Balanced (s.counted (s.finish p target result) p) := by
  have happened := paid_total (balanced.paid p)
  have once : retried (s.pc p) ((s.finish p target result).pc p) = false := by
    rw [show (s.finish p target result).pc p = .returning result from goto_self s p _]
    exact retried_returning _ result
  by_cases same : (s.finish p target result).target = s.target
  · rw [counted_same same once]
    refine own_balanced balanced p same rfl rfl
      (fun q other => ⟨goto_other s p _ other, rfl, rfl⟩) ?_ ?_
    · simp [State.finish, goto_self, Current]
    · simpa [State.finish, goto_self, State.goto, Paid] using happened
  · have counted : s.counted (s.finish p target result) p =
        { s.finish p target result with
          changes := s.changes + 1, own := Function.update s.own p (s.own p + 1) } := by
      unfold State.counted
      rw [if_neg same, if_neg same, once, if_neg Bool.false_ne_true]
      rfl
    rw [counted]
    refine ⟨?_, fun q => ?_, fun q => ?_⟩
    · have moved := total_moved s.own (Function.update s.own p (s.own p + 1)) p
        fun q other => Function.update_of_ne other _ _
      have total := balanced.total
      simp only [Function.update_self] at moved
      show ∑ q, Function.update s.own p (s.own p + 1) q = s.changes + 1
      omega
    · by_cases same : q = p
      · simp [same, State.finish, goto_self, Current]
      · simp only [State.finish, State.goto, Function.update_of_ne same]
        exact current_passed (balanced.paid q)
    · by_cases same : q = p
      · simp only [same, State.finish, State.goto, Function.update_self, Paid]
        omega
      · simp only [State.finish, State.goto, Function.update_of_ne same]
        exact paid_mono (Nat.le_succ _) (balanced.paid q)

theorem first_balanced (balanced : Balanced s) (p : Party) (operation : Operation)
    (place : s.pc p = .called operation) : Balanced (s.counted (firstStep s p operation) p) := by
  cases operation
  case faa | fas =>
    refine moved_balanced balanced p _ (by rw [place]; rfl) (fun _ => ⟨nofun, nofun⟩) ?_
    exact paid_total (balanced.paid p)
  all_goals exact finish_balanced balanced p _ _

/-- An exchange that fails has looked before the last change, and looks again. -/
theorem retry_balanced (balanced : Balanced s) {operation : Operation} {previous : UInt64}
    (place : s.pc p = .swap operation previous) (differs : s.target ≠ previous) :
    Balanced (s.counted { s.goto p (.swap operation s.target) with
      saw := Function.update s.saw p s.changes } p) := by
  have current := balanced.current p
  have paid := balanced.paid p
  rw [place] at current paid
  have seen : s.retries p + s.own p ≤ s.saw p := paid.2
  have passed : s.saw p < s.changes :=
    Nat.lt_of_le_of_ne paid.1 fun here => differs (current here.symm).symm
  have enough : s.retries p + 1 + s.own p ≤ s.changes := by omega
  have counted : s.counted { s.goto p (.swap operation s.target) with
        saw := Function.update s.saw p s.changes } p =
      { s.goto p (.swap operation s.target) with
        saw := Function.update s.saw p s.changes
        retries := Function.update s.retries p (s.retries p + 1) } := by
    simp [State.counted, State.goto, place, retried]
  rw [counted]
  refine own_balanced balanced p rfl rfl rfl ?_ ?_ ?_
  · exact fun q other => by simp [State.goto, other]
  · simp [State.goto, Current]
  · simpa [State.goto, Paid] using enough

theorem next_balanced (balanced : Balanced s) (taken : nextStep s p = some t) :
    Balanced (s.counted t p) := by
  have current := balanced.current p
  have paid := balanced.paid p
  have happened := paid_total paid
  cases place : s.pc p <;> simp only [nextStep, place, reduceCtorEq] at taken <;>
    rw [place] at current paid
  case called operation =>
    exact Option.some.inj taken ▸ first_balanced balanced p operation place
  case load operation low high =>
    cases low <;> cases high <;> simp only [reduceCtorEq, Option.some.injEq] at taken
    next low high =>
      subst taken
      refine moved_balanced balanced p _ (by rw [place]; rfl) (fun unmoved => ?_) paid
      obtain ⟨first, second⟩ := current unmoved
      rw [first low rfl, second high rfl, joined_halves]
  case swap operation previous =>
    by_cases same : s.target = previous
    · rw [if_pos same] at taken
      exact Option.some.inj taken ▸ finish_balanced balanced p _ _
    · rw [if_neg same] at taken
      exact Option.some.inj taken ▸ retry_balanced balanced place same
  case returning result =>
    cases taken
    exact moved_balanced balanced p _ (by rw [place]; rfl) trivial happened

theorem load_balanced {half : Half} (balanced : Balanced s) (taken : loadStep s p half = some t) :
    Balanced t := by
  have current := balanced.current p
  have paid := balanced.paid p
  have happened := paid_total paid
  unfold loadStep at taken
  split at taken <;> cases taken
  next operation place =>
    refine own_balanced balanced p rfl rfl rfl ?_ ?_ ?_
    · exact fun q other => by simp [State.goto, other]
    · simp [State.goto, Current]
    · simpa [State.goto, Paid] using happened
  next operation place =>
    refine own_balanced balanced p rfl rfl rfl ?_ ?_ ?_
    · exact fun q other => by simp [State.goto, other]
    · simp [State.goto, Current]
    · simpa [State.goto, Paid] using happened
  next operation high place =>
    rw [place] at current paid
    exact goto_balanced balanced p _ (fun unmoved => ⟨by simp, (current unmoved).2⟩) paid
  next operation low place =>
    rw [place] at current paid
    exact goto_balanced balanced p _ (fun unmoved => ⟨(current unmoved).1, by simp⟩) paid

theorem step_balanced (balanced : Balanced s) (a : Action Party) (taken : step s a = some t) :
    Balanced t := by
  cases a with
  | call p operation =>
      obtain ⟨_, taken⟩ := Option.ite_none_right_eq_some.mp taken
      cases taken
      exact goto_balanced balanced p _ trivial (paid_total (balanced.paid p))
  | load p half => exact load_balanced balanced taken
  | next p =>
      obtain ⟨u, moved, rfl⟩ := Option.map_eq_some_iff.mp taken
      exact next_balanced balanced moved

/-- Lock-freedom of the loops, a torn first load included: what others leave as it was costs
no retry. -/
theorem loops_lock_free (initial : UInt64) (schedule : List (Action Party)) :
    Always step (fun s => ∀ p, s.retries p ≤ ∑ q ∈ Finset.univ.erase p, s.own q)
      (start Party initial) schedule := by
  refine always_mono ?_ _ schedule
    (invariant_keeps (fun s a t (balanced : Balanced s) taken => step_balanced balanced a taken)
      _ schedule
      ⟨by simp [start], fun _ => trivial, fun _ => Nat.le_refl 0⟩)
  intro s balanced p
  have happened := paid_total (balanced.paid p)
  have parts := Finset.add_sum_erase Finset.univ s.own (Finset.mem_univ p)
  rw [balanced.total] at parts
  omega
end Progress

/-! The counters of the event loop are such words. -/
section EventLimit
variable {n : Nat} {cfg : EventLoop.Globals} {s t : EventLoop.State n} {w : Fin n}

/-- The `ck_pr_faa_64` of `sb_more_events` on `nevents`. -/
theorem count_event_faa {limit : Nat} (taken : EventLoop.workerStep cfg s w = some t)
    (place : (s.worker w).pc = .countEvent limit) :
    (word 0).apply (UInt64.ofNat s.nevents) (.faa 1) =
      (UInt64.ofNat t.nevents, .previous (UInt64.ofNat s.nevents)) := by
  simp only [EventLoop.workerStep, place] at taken
  cases taken
  simp only [word, EventLoop.State.goto, EventLoop.State.set, Prod.mk.injEq, and_true]
  apply UInt64.toNat_inj.mp
  simp only [UInt64.toNat_add, UInt64.toNat_ofNat', UInt64.toNat_one]
  omega
end EventLimit
end PteSysbench.SbCkPr
