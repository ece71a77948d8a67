import PteSysbench.SbHistogram
import Mathlib.Algebra.BigOperators.Fin
import Mathlib.Data.Nat.ModEq

/-!
No update of a histogram is lost. What a call holds on to is read off the rest of
the call: `t` between a fetch and the addition after it, and `temp_array[i]` as
long as it is read before it is overwritten.
-/

namespace PteSysbench.HistogramCounts

open ActionSystem SbHistogram

variable {size : Nat} {s t : State size}

/-- The bucket whose count an instruction takes from `t`. -/
def takes : Instr size → Option (Fin size)
  | .storeTemp i | .addTemp i | .addCumulative i => some i
  | _ => none

/-- The bucket whose count is in `t`. -/
def fetched (todo : List (Instr size)) : Option (Fin size) := todo.head?.bind takes

/-- `temp_array[i]` is read before it is overwritten. -/
def tempLive : List (Instr size) → Fin size → Bool
  | [], _ => false
  | .storeTemp j :: rest, i => i ≠ j && tempLive rest i
  | .addTemp j :: rest, i | .pour j :: rest, i => i = j || tempLive rest i
  | _ :: rest, i => tempLive rest i

/-- What the call in progress holds of a bucket. -/
def held (s : State size) (i : Fin size) : Nat :=
  (if fetched s.todo = some i then s.t.toNat else 0) +
    (if tempLive s.todo i then (s.tempArray i).toNat else 0)

/-- The slots, the cumulative array, what checkpoints discarded and what a merge holds. -/
def total (s : State size) (i : Fin size) : Nat :=
  ∑ slot, (s.intermSlots slot i).toNat + (s.cumulativeArray i).toNat + s.discarded i + held s i

/-- Every update that fell in a bucket is in one place, as far as 64-bit counters tell. -/
def Conserved (s : State size) : Prop :=
  ∀ i, total s i ≡ s.updates i [MOD 2 ^ 64] ∧
    (s.updates i < 2 ^ 64 → total s i = s.updates i)

/-- What is fetched is added, what is stored is read, and what is poured is not read again. -/
def Linear : List (Instr size) → Prop
  | [] => True
  | .fetch _ i :: rest => fetched rest = some i ∧ Linear rest
  | .storeTemp i :: rest | .addTemp i :: rest =>
      fetched rest = none ∧ tempLive rest i = true ∧ Linear rest
  | .pour i :: rest => fetched rest = none ∧ tempLive rest i = false ∧ Linear rest
  | .returnIfEmpty :: rest =>
      fetched rest = none ∧ (∀ i, tempLive rest i = false) ∧ Linear rest
  | _ :: rest => fetched rest = none ∧ Linear rest

/-! The operations are linear. A block is put before a rest whose live buckets are known. -/
section Programs

/-- Nothing is held in `t`, and the live elements of `temp_array` are these. -/
structure Resumes (rest : List (Instr size)) (live : Fin size → Bool) : Prop where
  fetched : fetched rest = none
  live : ∀ i, tempLive rest i = live i
  linear : Linear rest

theorem resumes_stores (buckets : List (Fin size)) (rest : List (Instr size)) (slot : Slot)
    (noDup : buckets.Nodup) (resumes : Resumes rest fun _ => true) :
    Resumes (buckets.flatMap (fun i => [.fetch slot i, .storeTemp i]) ++ rest)
      fun i => i ∉ buckets := by
  induction buckets with
  | nil => simpa using resumes
  | cons head tail ih =>
      obtain ⟨fresh, tailNoDup⟩ := List.nodup_cons.mp noDup
      have later := ih tailNoDup
      refine ⟨rfl, fun i => ?_, rfl, later.fetched, (later.live head).trans ?_, later.linear⟩
      · simp [tempLive, later.live]
      · simpa using fresh

theorem resumes_added_slots (slots : List Slot) (rest : List (Instr size))
    (resumes : Resumes rest fun _ => true) :
    Resumes (slots.flatMap (drain .addTemp) ++ rest) fun _ => true := by
  refine drain_keeps (fun todo => Resumes todo fun _ => true) .addTemp slots rest
    (fun _ i later before => ?_) resumes
  refine ⟨rfl, fun j => ?_, rfl, before.fetched, before.live i, before.linear⟩
  simp [tempLive, before.live]

theorem resumes_pours (buckets : List (Fin size)) (rest : List (Instr size))
    (noDup : buckets.Nodup) (resumes : Resumes rest fun _ => false) :
    Resumes (buckets.map .pour ++ rest) fun i => i ∈ buckets := by
  induction buckets with
  | nil => simpa using resumes
  | cons head tail ih =>
      obtain ⟨fresh, tailNoDup⟩ := List.nodup_cons.mp noDup
      have later := ih tailNoDup
      refine ⟨rfl, fun i => ?_, later.fetched, (later.live head).trans ?_, later.linear⟩
      · simp [tempLive, later.live]
      · simpa using fresh

theorem resumes_cumulative (slots : List Slot) (rest : List (Instr size)) (live : Fin size → Bool)
    (resumes : Resumes rest live) :
    Resumes (slots.flatMap (drain .addCumulative) ++ rest) live := by
  exact drain_keeps (fun todo => Resumes todo live) .addCumulative slots rest
    (fun _ _ _ later => ⟨rfl, later.live, rfl, later.fetched, later.linear⟩) resumes

theorem resumes_merge (rest : List (Instr size)) (live : Fin size → Bool)
    (resumes : Resumes rest live) : Resumes (mergeIntermediateIntoCumulative ++ rest) live := by
  have stored : Resumes (.storeNevents :: rest) live :=
    ⟨rfl, resumes.live, resumes.fetched, resumes.linear⟩
  have drained := resumes_cumulative (List.finRange nslots) _ _ stored
  rw [merge_append]
  exact ⟨rfl, drained.live, drained.fetched, drained.linear⟩

theorem resumes_clears (buckets : List (Fin size)) (rest : List (Instr size))
    (live : Fin size → Bool) (resumes : Resumes rest live) :
    Resumes (buckets.map .clear ++ rest) live := by
  induction buckets with
  | nil => exact resumes
  | cons head tail ih => exact ⟨rfl, ih.live, ih.fetched, ih.linear⟩

theorem program_resumes (size : Nat) (operation : Operation) :
    Resumes (program operation : List (Instr size)) fun _ => false := by
  have unlocked : Resumes ([.unlock] : List (Instr size)) fun _ => false :=
    ⟨rfl, fun _ => rfl, rfl, trivial⟩
  cases operation with
  | getPctIntermediate percentile =>
      have counted : Resumes ([.addNevents, .unlock] : List (Instr size)) fun _ => false :=
        ⟨rfl, fun _ => rfl, rfl, unlocked.linear⟩
      have poured := resumes_pours (List.finRange size) _ (List.nodup_finRange size) counted
      have ranked : Resumes (.rankTemp percentile :: ((List.finRange size).map .pour ++
          [.addNevents, .unlock])) fun _ => true :=
        ⟨rfl, fun i => by simp [tempLive, poured.live], poured.fetched, poured.linear⟩
      have added := resumes_added_slots ((List.finRange nslots).drop 1) _ ranked
      have stored := resumes_stores (List.finRange size) _ 0 (List.nodup_finRange size) added
      exact ⟨rfl, fun i => (stored.live i).trans (by simp), rfl, stored.fetched, stored.linear⟩
  | getPctCumulative percentile =>
      have ranked : Resumes ([.rankCumulative percentile, .unlock] : List (Instr size))
          fun _ => false := ⟨rfl, fun _ => rfl, rfl, unlocked.linear⟩
      have merged := resumes_merge _ _ ranked
      exact ⟨rfl, merged.live, merged.fetched, merged.linear⟩
  | getPctCheckpoint percentile =>
      have counted : Resumes ([.clearNevents, .unlock] : List (Instr size)) fun _ => false :=
        ⟨rfl, fun _ => rfl, rfl, unlocked.linear⟩
      have cleared := resumes_clears (List.finRange size) _ _ counted
      have ranked : Resumes (.rankCumulative percentile :: ((List.finRange size).map .clear ++
          [.clearNevents, .unlock])) fun _ => false :=
        ⟨rfl, cleared.live, cleared.fetched, cleared.linear⟩
      have merged := resumes_merge _ _ ranked
      exact ⟨rfl, merged.live, merged.fetched, merged.linear⟩
  | print =>
      have returns : Resumes ([.returnIfEmpty, .unlock] : List (Instr size)) fun _ => false :=
        ⟨rfl, fun _ => rfl, rfl, fun _ => rfl, unlocked.linear⟩
      have merged := resumes_merge _ _ returns
      exact ⟨rfl, merged.live, merged.fetched, merged.linear⟩

end Programs

/-! One step, and a run. -/
section Runs

theorem slot_sum (slots : Slot → Fin size → UInt64) (slot : Slot) (i j : Fin size)
    (count : UInt64) :
    ∑ other, (setSlot slots slot i count other j).toNat +
        (if j = i then (slots slot i).toNat else 0) =
      ∑ other, (slots other j).toNat + if j = i then count.toNat else 0 := by
  have moved := total_moved (fun other => (slots other j).toNat)
    (fun other => (setSlot slots slot i count other j).toNat) slot
    fun other apart => by simp [setSlot, apart]
  by_cases here : j = i
  · subst here
    have stored : setSlot slots slot j count slot j = count := by simp [setSlot]
    rw [stored] at moved
    simpa only [↓reduceIte] using moved
  · have kept : setSlot slots slot i count slot j = slots slot j := by simp [setSlot, here]
    rw [kept] at moved
    simpa only [here, ↓reduceIte, add_zero] using Nat.add_right_cancel moved

/-- A 64-bit addition loses whole multiples of 2^64. -/
theorem add_wraps (a b : UInt64) :
    ∃ wraps, (a + b).toNat + 2 ^ 64 * wraps = a.toNat + b.toNat :=
  ⟨(a.toNat + b.toNat) / 2 ^ 64, by rw [UInt64.toNat_add, Nat.mod_add_div]⟩

theorem fetched_nil : fetched ([] : List (Instr size)) = none := rfl

theorem fetched_cons (instr : Instr size) (rest : List (Instr size)) :
    fetched (instr :: rest) = takes instr := rfl

theorem linear_tail (instr : Instr size) (rest : List (Instr size))
    (linear : Linear (instr :: rest)) : Linear rest := by
  cases instr
  case storeTemp | addTemp | pour | returnIfEmpty => exact linear.2.2
  all_goals exact linear.2

theorem step_linear (s : State size) (a : Action) (t : State size) (linear : Linear s.todo)
    (taken : step s a = some t) : Linear t.todo := by
  cases a with
  | update slot raw =>
      obtain ⟨i, _, rfl⟩ := Option.map_eq_some_iff.mp taken
      exact linear
  | call operation =>
      obtain ⟨_, taken⟩ := Option.ite_none_right_eq_some.mp taken
      obtain rfl := Option.some.inj taken
      exact (program_resumes size operation).linear
  | proceed relock =>
      obtain ⟨instr, rest, listed, ⟨rfl, _⟩ | ⟨_, _, rfl⟩⟩ := proceed_cases taken
      · rw [listed] at linear
        exact linear_tail instr rest linear
      · trivial

/-- A step of a call moves counts between the places. -/
theorem exec_total (instr : Instr size) (rest : List (Instr size)) (i : Fin size)
    (listed : s.todo = instr :: rest) (linear : Linear (instr :: rest)) :
    ∃ wraps, total { exec s instr with todo := rest, discarded := discards s } i +
      2 ^ 64 * wraps = total s i := by
  cases instr
  case fetch slot j =>
    have moved := slot_sum s.intermSlots slot j i 0
    refine ⟨0, ?_⟩
    simp only [total, held, exec, discards, listed, fetched_cons, takes, tempLive, linear.1,
      Option.some.injEq, reduceCtorEq, ↓reduceIte]
    by_cases here : i = j
    · subst here
      simp only [↓reduceIte, UInt64.toNat_zero] at moved ⊢
      omega
    · simp only [here, ne_comm.mp here, ↓reduceIte] at moved ⊢
      omega
  case storeTemp j =>
    refine ⟨0, ?_⟩
    simp only [total, held, exec, discards, listed, fetched_cons, takes, tempLive, linear.1,
      Option.some.injEq, reduceCtorEq, ↓reduceIte]
    by_cases here : i = j
    · subst here
      simp [linear.2.1]
    · simp [here, ne_comm.mp here]
  -- an addition may wrap, which the total counts
  case addTemp j =>
    obtain ⟨wraps, sum⟩ := add_wraps (s.tempArray j) s.t
    simp only [total, held, exec, discards, listed, fetched_cons, takes, tempLive, linear.1,
      Option.some.injEq, reduceCtorEq, ↓reduceIte]
    by_cases here : i = j
    · subst here
      refine ⟨wraps, ?_⟩
      simp only [linear.2.1, Function.update_self, decide_true, Bool.true_or, ↓reduceIte]
      omega
    · refine ⟨0, ?_⟩
      simp [here, ne_comm.mp here]
  case addCumulative j =>
    obtain ⟨wraps, sum⟩ := add_wraps (s.cumulativeArray j) s.t
    simp only [total, held, exec, discards, listed, fetched_cons, takes, tempLive, linear.1,
      Option.some.injEq, reduceCtorEq, ↓reduceIte]
    by_cases here : i = j
    · subst here
      refine ⟨wraps, ?_⟩
      simp only [Function.update_self, ↓reduceIte]
      omega
    · refine ⟨0, ?_⟩
      simp [here, ne_comm.mp here]
  case pour j =>
    obtain ⟨wraps, sum⟩ := add_wraps (s.cumulativeArray j) (s.tempArray j)
    simp only [total, held, exec, discards, listed, fetched_cons, takes, tempLive, linear.1,
      reduceCtorEq, ↓reduceIte]
    by_cases here : i = j
    · subst here
      refine ⟨wraps, ?_⟩
      simp only [linear.2.1, Function.update_self, decide_true, Bool.true_or, ↓reduceIte,
        Bool.false_eq_true]
      omega
    · refine ⟨0, ?_⟩
      simp [here]
  case clear j =>
    refine ⟨0, ?_⟩
    simp only [total, held, exec, discards, listed, fetched_cons, takes, tempLive, linear.1,
      reduceCtorEq, ↓reduceIte]
    by_cases here : i = j
    · subst here
      simp only [bump, Function.update_self, UInt64.toNat_zero]
      omega
    · simp [bump, here]
  all_goals
    refine ⟨0, ?_⟩
    simp only [total, held, exec, discards, listed, fetched_cons, takes, tempLive, linear.1,
      reduceCtorEq, ↓reduceIte, Nat.mul_zero, Nat.add_zero]

structure Accounted (s : State size) : Prop where
  linear : Linear s.todo
  wrapped : ∀ i, ∃ wraps, total s i + 2 ^ 64 * wraps = s.updates i

theorem init_accounted (size : Nat) (memory : UInt64) :
    Accounted (sbHistogramInit size memory) := by
  refine ⟨trivial, fun i => ⟨0, ?_⟩⟩
  simp [total, held, sbHistogramInit, fetched, tempLive]

theorem update_accounted (accounted : Accounted s) (slot : Slot) (i : Fin size) :
    Accounted { sbHistogramUpdate s slot i with updates := bump s.updates i 1 } := by
  refine ⟨accounted.linear, fun j => ?_⟩
  obtain ⟨lost, before⟩ := accounted.wrapped j
  obtain ⟨wraps, sum⟩ := add_wraps (s.intermSlots slot i) 1
  have moved := slot_sum s.intermSlots slot i j (s.intermSlots slot i + 1)
  have one : (1 : UInt64).toNat = 1 := rfl
  have same : held { sbHistogramUpdate s slot i with updates := bump s.updates i 1 } j =
      held s j := rfl
  unfold total at before ⊢
  rw [same]
  by_cases here : j = i
  · subst here
    refine ⟨lost + wraps, ?_⟩
    simp only [↓reduceIte, sbHistogramUpdate, bump, Function.update_self] at moved ⊢
    omega
  · refine ⟨lost, ?_⟩
    simp only [here, ↓reduceIte, sbHistogramUpdate, bump, ne_eq, not_false_eq_true,
      Function.update_of_ne] at moved ⊢
    omega

theorem step_accounted (s : State size) (a : Action) (t : State size) (accounted : Accounted s)
    (taken : step s a = some t) : Accounted t := by
  have later := step_linear s a t accounted.linear taken
  cases a with
  | update slot raw =>
      obtain ⟨i, _, rfl⟩ := Option.map_eq_some_iff.mp taken
      exact update_accounted accounted slot i
  | call operation =>
      obtain ⟨idle, taken⟩ := Option.ite_none_right_eq_some.mp taken
      obtain rfl := Option.some.inj taken
      have resumes := program_resumes size operation
      refine ⟨later, fun i => ?_⟩
      obtain ⟨wraps, before⟩ := accounted.wrapped i
      refine ⟨wraps, before ▸ ?_⟩
      simp [total, held, resumes.fetched, resumes.live, List.isEmpty_iff.mp idle, fetched_nil,
        tempLive]
  | proceed relock =>
      obtain ⟨instr, rest, listed, ⟨rfl, _⟩ | ⟨rfl, _, rfl⟩⟩ := proceed_cases taken
      · have linear := accounted.linear
        rw [listed] at linear
        refine ⟨later, fun i => ?_⟩
        obtain ⟨lost, before⟩ := accounted.wrapped i
        obtain ⟨wraps, moved⟩ := exec_total instr rest i listed linear
        refine ⟨lost + wraps, ?_⟩
        have same : (exec s instr).updates i = s.updates i := by
          cases instr <;> rfl
        change _ = (exec s instr).updates i
        rw [same]
        omega
      · -- the rest that the early return drops holds nothing
        have linear := accounted.linear
        rw [listed] at linear
        refine ⟨later, fun i => ?_⟩
        obtain ⟨wraps, before⟩ := accounted.wrapped i
        refine ⟨wraps, before ▸ ?_⟩
        simp [total, held, listed, fetched_nil, fetched_cons, takes, tempLive, linear.2.1]

theorem accounted_conserved (s : State size) (accounted : Accounted s) : Conserved s := by
  intro i
  obtain ⟨wraps, sum⟩ := accounted.wrapped i
  constructor
  · rw [← sum]
    exact (Nat.add_mul_mod_self_left _ _ _).symm
  · intro small
    omega

theorem updates_conserved (size : Nat) (memory : UInt64) (schedule : List Action) :
    Always step Conserved (sbHistogramInit size memory) schedule :=
  always_mono accounted_conserved _ schedule
    (invariant_keeps step_accounted _ schedule (init_accounted size memory))

end Runs
end PteSysbench.HistogramCounts
