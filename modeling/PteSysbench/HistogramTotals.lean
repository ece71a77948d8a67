import PteSysbench.HistogramCounts
import Mathlib.Data.UInt
import Mathlib.Tactic.Ring

/-!
The redundant event count of a histogram. `cumulative_nevents` is the sum of
`cumulative_array` between the operations if it is at the beginning, which
`sb_histogram_init` leaves to the memory it is given.
-/

namespace PteSysbench.HistogramTotals

open ActionSystem SbHistogram HistogramCounts
open scoped UInt64.CommRing

variable {size : Nat} {s t : State size}

/-- Between operations, and where a percentile is computed from the cumulative array,
the count is the number of events. -/
def CountsEvents (s : State size) : Prop :=
  (s.todo = [] ∨ ∃ percentile rest, s.todo = .rankCumulative percentile :: rest) →
    s.cumulativeNevents = ∑ i, s.cumulativeArray i

/-- How the next use of an event count finds it. -/
inductive Mode where
  | settled
  | adding
  | storing
  | clearing
  deriving DecidableEq

def mode : List (Instr size) → Mode
  | [] => .settled
  | .zeroNevents :: _ | .loadNevents :: _ | .rankCumulative _ :: _ => .settled
  | .addNevents :: _ => .adding
  | .storeNevents :: _ => .storing
  | .clearNevents :: _ => .clearing
  | _ :: rest => mode rest

/-- What is in `temp_array` and not in `cumulative_array` yet. -/
def liveTemp (s : State size) (i : Fin size) : UInt64 :=
  if tempLive s.todo i then s.tempArray i else 0

/-- What the event counts are worth in each mode. -/
def Balanced (s : State size) : Mode → Prop
  | .settled => s.cumulativeNevents = ∑ i, s.cumulativeArray i
  | .adding => s.cumulativeNevents + s.nevents = ∑ i, s.cumulativeArray i + ∑ i, liveTemp s i
  | .storing => s.nevents = ∑ i, s.cumulativeArray i
  | .clearing => ∀ i, .clear i ∉ s.todo → s.cumulativeArray i = 0

/-- Every instruction hands the counts on in the mode the rest expects. -/
def Totals : List (Instr size) → Prop
  | [] => True
  | .zeroNevents :: rest => mode rest = .adding ∧ (∀ i, tempLive rest i = false) ∧ Totals rest
  | .loadNevents :: rest | .addCumulative _ :: rest => mode rest = .storing ∧ Totals rest
  | .storeTemp _ :: rest | .addTemp _ :: rest | .pour _ :: rest =>
      mode rest = .adding ∧ Totals rest
  | .addNevents :: rest => mode rest = .settled ∧ (∀ i, tempLive rest i = false) ∧ Totals rest
  | .storeNevents :: rest | .returnIfEmpty :: rest => mode rest = .settled ∧ Totals rest
  | .rankCumulative _ :: rest =>
      (mode rest = .settled ∨ mode rest = .clearing ∧ ∀ i, .clear i ∈ rest) ∧ Totals rest
  | .clear _ :: rest => mode rest = .clearing ∧ Totals rest
  | .clearNevents :: rest => mode rest = .settled ∧ (∀ i, .clear i ∉ rest) ∧ Totals rest
  | _ :: rest => Totals rest

/-! Sums over the buckets. -/
section Sums

theorem sum_update (counts : Fin size → UInt64) (i : Fin size) (count : UInt64) :
    ∑ j, Function.update counts i count j + counts i = ∑ j, counts j + count := by
  have moved := total_moved counts (Function.update counts i count) i
    fun j apart => Function.update_of_ne apart count counts
  rwa [Function.update_self] at moved

theorem sum_add (counts : Fin size → UInt64) (i : Fin size) (more : UInt64) :
    ∑ j, Function.update counts i (counts i + more) j = ∑ j, counts j + more := by
  have changed := sum_update counts i (counts i + more)
  rw [← add_assoc, add_right_comm] at changed
  exact add_right_cancel changed

end Sums

/-! The operations hand the counts on. -/
section Programs

theorem totals_drain (keep : Fin size → Instr size) (slots : List Slot) (rest : List (Instr size))
    (start : Mode) (begins : mode rest = start)
    (kept : ∀ i later, mode later = start → Totals later → mode (keep i :: later) = start ∧
      Totals (keep i :: later)) (totals : Totals rest) :
    mode (slots.flatMap (drain keep) ++ rest) = start ∧
      Totals (slots.flatMap (drain keep) ++ rest) := by
  exact drain_keeps (fun todo => mode todo = start ∧ Totals todo) keep slots rest
    (fun _ i later before => kept i later before.1 before.2) ⟨begins, totals⟩

theorem totals_merge (rest : List (Instr size)) (settled : mode rest = .settled)
    (totals : Totals rest) :
    mode (mergeIntermediateIntoCumulative ++ rest) = .settled ∧
      Totals (mergeIntermediateIntoCumulative ++ rest) := by
  have drained := totals_drain .addCumulative (List.finRange nslots) (.storeNevents :: rest)
    .storing rfl (fun _ _ begins later => ⟨begins, begins, later⟩) ⟨settled, totals⟩
  rw [merge_append]
  exact ⟨rfl, drained⟩

theorem totals_pours (buckets : List (Fin size)) (rest : List (Instr size))
    (adding : mode rest = .adding) (totals : Totals rest) :
    mode (buckets.map .pour ++ rest) = .adding ∧ Totals (buckets.map .pour ++ rest) := by
  induction buckets with
  | nil => exact ⟨adding, totals⟩
  | cons head tail ih => exact ⟨ih.1, ih⟩

theorem totals_clears (buckets : List (Fin size)) (rest : List (Instr size))
    (clearing : mode rest = .clearing) (totals : Totals rest) :
    mode (buckets.map .clear ++ rest) = .clearing ∧ Totals (buckets.map .clear ++ rest) := by
  induction buckets with
  | nil => exact ⟨clearing, totals⟩
  | cons head tail ih => exact ⟨ih.1, ih⟩

theorem program_totals (size : Nat) (operation : Operation) :
    mode (program operation : List (Instr size)) = .settled ∧
      Totals (program operation : List (Instr size)) := by
  cases operation with
  | getPctIntermediate percentile =>
      have fresh := (program_resumes size (.getPctIntermediate percentile)).live
      have poured := totals_pours (List.finRange size) [.addNevents, .unlock] rfl
        ⟨rfl, fun _ => rfl, trivial⟩
      have ranked : mode (.rankTemp percentile :: ((List.finRange size).map .pour ++
          [.addNevents, .unlock])) = .adding := poured.1
      have added := totals_drain .addTemp ((List.finRange nslots).drop 1) _ .adding ranked
        (fun _ _ begins later => ⟨begins, begins, later⟩) poured.2
      have stored := totals_drain .storeTemp [0] _ .adding added.1
        (fun _ _ begins later => ⟨begins, begins, later⟩) added.2
      rw [List.flatMap_singleton] at stored
      exact ⟨rfl, stored.1, fresh, stored.2⟩
  | getPctCumulative percentile =>
      have merged := totals_merge ([.rankCumulative percentile, .unlock] : List (Instr size)) rfl
        ⟨Or.inl rfl, trivial⟩
      exact ⟨merged.1, merged.2⟩
  | getPctCheckpoint percentile =>
      have cleared := totals_clears (List.finRange size) [.clearNevents, .unlock] rfl
        ⟨rfl, by simp, trivial⟩
      have all (i : Fin size) : Instr.clear i ∈ (List.finRange size).map .clear ++
          [.clearNevents, .unlock] :=
        List.mem_append_left _ (List.mem_map_of_mem (List.mem_finRange i))
      have ranked : Totals (.rankCumulative percentile :: ((List.finRange size).map .clear ++
          [.clearNevents, .unlock])) := ⟨Or.inr ⟨cleared.1, all⟩, cleared.2⟩
      have merged := totals_merge _ rfl ranked
      exact ⟨merged.1, merged.2⟩
  | print =>
      have merged := totals_merge ([.returnIfEmpty, .unlock] : List (Instr size)) rfl
        ⟨rfl, trivial⟩
      exact ⟨merged.1, merged.2⟩

end Programs

/-! One step, and a run. -/
section Runs

/-- A step that touches no count keeps the balance. -/
theorem balanced_same (u : State size) (start : Mode) (balanced : Balanced s start)
    (cumulative : u.cumulativeNevents = s.cumulativeNevents) (nevents : u.nevents = s.nevents)
    (array : u.cumulativeArray = s.cumulativeArray) (live : liveTemp u = liveTemp s)
    (clears : ∀ i, .clear i ∈ s.todo → .clear i ∈ u.todo) : Balanced u start := by
  cases start with
  | settled => simpa only [Balanced, cumulative, array] using balanced
  | adding => simpa only [Balanced, cumulative, nevents, array, live] using balanced
  | storing => simpa only [Balanced, nevents, array] using balanced
  | clearing =>
      intro i absent
      rw [array]
      exact balanced i fun member => absent (clears i member)

/-- What is added to a live element of `temp_array` is added to the event count. -/
theorem balanced_added (i : Fin size) (u : State size) (balanced : Balanced s .adding)
    (cumulative : u.cumulativeNevents = s.cumulativeNevents)
    (nevents : u.nevents = s.nevents + s.t) (array : u.cumulativeArray = s.cumulativeArray)
    (live : liveTemp u = Function.update (liveTemp s) i (liveTemp s i + s.t)) :
    Balanced u .adding := by
  simp only [Balanced] at balanced ⊢
  rw [cumulative, nevents, array, live, sum_add, ← add_assoc, balanced, add_assoc]

/-- What is poured out of `temp_array` is live no more. -/
theorem balanced_poured (i : Fin size) (rest : List (Instr size))
    (listed : s.todo = .pour i :: rest) (dead : tempLive rest i = false)
    (balanced : Balanced s .adding) :
    Balanced { exec s (.pour i) with todo := rest } .adding := by
  have live : liveTemp { exec s (.pour i) with todo := rest } =
      Function.update (liveTemp s) i 0 := by
    funext j
    by_cases here : j = i
    · subst here
      simp [liveTemp, dead]
    · simp [liveTemp, exec, listed, tempLive, here]
  have poured : liveTemp s i = s.tempArray i := by simp [liveTemp, listed, tempLive]
  have moved := sum_update (liveTemp s) i 0
  rw [poured, add_zero] at moved
  simp only [Balanced, live]
  simp only [exec, sum_add]
  rw [add_assoc, add_comm (s.tempArray i), moved]
  exact balanced

/-- All elements that are not to be cleared any more are 0. -/
theorem balanced_cleared (i : Fin size) (rest : List (Instr size))
    (listed : s.todo = .clear i :: rest) (balanced : Balanced s .clearing) :
    Balanced { exec s (.clear i) with todo := rest } .clearing := by
  intro j absent
  by_cases here : j = i
  · simp [exec, here]
  · simp only [exec, ne_eq, here, not_false_eq_true, Function.update_of_ne]
    apply balanced
    rw [listed, List.mem_cons, not_or]
    exact ⟨fun head => here (Instr.clear.inj head), absent⟩

/-- A step of a call hands the counts on. -/
theorem exec_balanced (instr : Instr size) (rest : List (Instr size))
    (listed : s.todo = instr :: rest) (linear : Linear (instr :: rest))
    (totals : Totals (instr :: rest)) (balanced : Balanced s (mode (instr :: rest))) :
    Balanced { exec s instr with todo := rest } (mode rest) := by
  have same (other : Instr size) (kept : ∀ i, other ≠ .clear i) (i : Fin size)
      (member : .clear i ∈ other :: rest) : .clear i ∈ rest := by
    rcases List.mem_cons.mp member with head | tail
    · exact absurd head.symm (kept i)
    · exact tail
  -- one case for each instruction, with the mode that is left behind it
  cases instr
  case lock | unlock | fetch | rankTemp =>
    refine balanced_same _ _ balanced rfl rfl rfl ?_ ?_
    · funext i
      simp only [liveTemp, exec, listed, tempLive]
    · rw [listed]
      exact same _ (by simp)
  case zeroNevents =>
    rw [totals.1]
    have none (i : Fin size) : liveTemp { exec s .zeroNevents with todo := rest } i = 0 := by
      simp [liveTemp, totals.2.1 i]
    simp only [Balanced, none, Finset.sum_const_zero]
    simp only [exec, add_zero]
    exact balanced
  case loadNevents =>
    rw [totals.1]
    exact balanced
  case storeTemp i | addTemp i =>
    have adding : Balanced s .adding := totals.1 ▸ (show Balanced s (mode rest) from balanced)
    rw [totals.1]
    refine balanced_added i _ adding rfl rfl rfl ?_
    funext j
    by_cases here : j = i
    · subst here
      simp [liveTemp, exec, listed, tempLive, linear.2.1]
    · simp [liveTemp, exec, listed, tempLive, here]
  case addCumulative i =>
    have storing : Balanced s .storing := totals.1 ▸ (show Balanced s (mode rest) from balanced)
    rw [totals.1]
    simp only [Balanced, exec, sum_add]
    rw [show s.nevents = _ from storing]
  case pour i =>
    have adding : Balanced s .adding := totals.1 ▸ (show Balanced s (mode rest) from balanced)
    rw [totals.1]
    exact balanced_poured i rest listed linear.2.1 adding
  case addNevents =>
    rw [totals.1]
    have none (i : Fin size) : liveTemp s i = 0 := by
      simp [liveTemp, listed, tempLive, totals.2.1 i]
    have added : s.cumulativeNevents + s.nevents = _ := balanced
    simp only [none, Finset.sum_const_zero, add_zero] at added
    exact added
  case storeNevents =>
    rw [totals.1]
    exact balanced
  case rankCumulative percentile =>
    rcases totals.1 with settled | ⟨clearing, all⟩
    · rw [settled]
      exact balanced
    · rw [clearing]
      exact fun i absent => absurd (all i) absent
  case clear i =>
    have clearing : Balanced s .clearing :=
      totals.1 ▸ (show Balanced s (mode rest) from balanced)
    rw [totals.1]
    exact balanced_cleared i rest listed clearing
  case clearNevents =>
    rw [totals.1]
    have cleared (i : Fin size) : s.cumulativeArray i = 0 := by
      apply balanced
      rw [listed, List.mem_cons, not_or]
      exact ⟨by simp, totals.2.1 i⟩
    simp only [Balanced, exec, cleared, Finset.sum_const_zero]
  case returnIfEmpty =>
    have settled : Balanced s .settled := totals.1 ▸ (show Balanced s (mode rest) from balanced)
    rw [totals.1]
    exact settled

theorem totals_tail (instr : Instr size) (rest : List (Instr size))
    (totals : Totals (instr :: rest)) : Totals rest := by
  cases instr
  case zeroNevents | addNevents | clearNevents => exact totals.2.2
  case lock | unlock | fetch | rankTemp => exact totals
  all_goals exact totals.2

/-- The event counts and what is left of the call agree. -/
structure Summed (s : State size) : Prop where
  linear : Linear s.todo
  totals : Totals s.todo
  balanced : Balanced s (mode s.todo)

theorem idle_summed (s : State size) (idle : s.todo = [])
    (counted : s.cumulativeNevents = ∑ i, s.cumulativeArray i) : Summed s := by
  refine ⟨?_, ?_, ?_⟩ <;> rw [idle]
  · trivial
  · trivial
  · exact counted

theorem step_summed (s : State size) (a : Action) (t : State size) (summed : Summed s)
    (taken : step s a = some t) : Summed t := by
  have linear := step_linear s a t summed.linear taken
  cases a with
  | update slot raw =>
      obtain ⟨i, _, rfl⟩ := Option.map_eq_some_iff.mp taken
      exact ⟨linear, summed.totals,
        balanced_same _ _ summed.balanced rfl rfl rfl rfl fun _ member => member⟩
  | call operation =>
      obtain ⟨idle, taken⟩ := Option.ite_none_right_eq_some.mp taken
      obtain rfl := Option.some.inj taken
      obtain ⟨settled, totals⟩ := program_totals size operation
      have before := summed.balanced
      rw [List.isEmpty_iff.mp idle] at before
      refine ⟨linear, totals, ?_⟩
      rw [settled]
      exact before
  | proceed relock =>
      have totals := summed.totals
      have balanced := summed.balanced
      obtain ⟨instr, rest, listed, ⟨rfl, _⟩ | ⟨rfl, _, rfl⟩⟩ := proceed_cases taken
      · have before := summed.linear
        rw [listed] at before totals balanced
        have after := exec_balanced instr rest listed before totals balanced
        exact ⟨linear, totals_tail instr rest totals,
          balanced_same _ _ after rfl rfl rfl rfl fun _ member => member⟩
      · rw [listed] at totals balanced
        have settled : Balanced s .settled :=
          totals.1 ▸ (show Balanced s (mode rest) from balanced)
        exact ⟨linear, trivial, settled⟩

theorem summed_counts (s : State size) (summed : Summed s) : CountsEvents s := by
  have balanced := summed.balanced
  rintro (idle | ⟨percentile, rest, listed⟩)
  · rw [idle] at balanced
    exact balanced
  · rw [listed] at balanced
    exact balanced

/-- The updates are accounted for as well. -/
structure Tallied (s : State size) : Prop where
  accounted : Accounted s
  totals : Totals s.todo
  balanced : Balanced s (mode s.todo)

theorem tallied_summed (s : State size) (tallied : Tallied s) : Summed s :=
  ⟨tallied.accounted.linear, tallied.totals, tallied.balanced⟩

theorem init_tallied (size : Nat) : Tallied (sbHistogramInit size 0) := by
  refine ⟨init_accounted size 0, trivial, ?_⟩
  simp [sbHistogramInit, mode, Balanced]

theorem step_tallied (s : State size) (a : Action) (t : State size) (tallied : Tallied s)
    (taken : step s a = some t) : Tallied t := by
  have summed := step_summed s a t (tallied_summed s tallied) taken
  exact ⟨step_accounted s a t tallied.accounted taken, summed.totals, summed.balanced⟩

theorem counts_events_iff (size : Nat) (memory : UInt64) :
    (∀ schedule, Always step CountsEvents (sbHistogramNew size memory) schedule) ↔ memory = 0 := by
  constructor
  · intro all
    have empty : memory = ∑ _ : Fin size, 0 := all [] (Or.inl rfl)
    rw [empty, Finset.sum_const_zero]
  · rintro rfl schedule
    exact always_mono (fun t tallied => summed_counts t (tallied_summed t tallied)) _ schedule
      (invariant_keeps step_tallied _ schedule (init_tallied size))

/-- A structure whose memory held a 1. -/
theorem new_histogram_miscounts :
    ¬ Always step CountsEvents (sbHistogramNew 10 1) [] := by
  intro counts
  have one : (1 : UInt64) = ∑ _ : Fin 10, 0 := counts (Or.inl rfl)
  rw [Finset.sum_const_zero] at one
  cases one

end Runs
end PteSysbench.HistogramTotals
