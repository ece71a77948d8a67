import PteSysbench.HistogramTotals
import Mathlib.Data.Rat.Cast.Order
import Mathlib.Tactic.Linarith

/-!
The bucket a percentile falls on. The search is the same over `temp_array` and over
`cumulative_array`; what makes its rank the right one is that each merge has counted
into its event count exactly what it left in its array.
-/

namespace PteSysbench.HistogramPercentile

open ActionSystem SbHistogram HistogramCounts HistogramTotals
open scoped UInt64.CommRing

/-! The percentile of a list of counts. -/
section Percentiles
variable {counts : List Nat}

/-- The events up to and including bucket `i`. -/
def prefixSum (counts : List Nat) (i : Nat) : Nat := (counts.take (i + 1)).sum

def nmax (counts : List Nat) (percentile : ℚ) : ℤ :=
  ⌊(counts.sum : ℚ) * percentile / 100 + 1 / 2⌋

/-- The least bucket whose prefix sum reaches the rank. -/
structure PercentileIndex (counts : List Nat) (percentile : ℚ) (i : Nat) : Prop where
  inside : i < counts.length
  reached : nmax counts percentile ≤ prefixSum counts i
  least : ∀ j < i, prefixSum counts j < nmax counts percentile

theorem prefix_sum_zero (count : Nat) (rest : List Nat) : prefixSum (count :: rest) 0 = count := by
  simp [prefixSum]

theorem prefix_sum_succ (count : Nat) (rest : List Nat) (i : Nat) :
    prefixSum (count :: rest) (i + 1) = count + prefixSum rest i := by
  simp [prefixSum]

theorem nmax_nonneg (percentile : ℚ) (low : 0 ≤ percentile) : 0 ≤ nmax counts percentile := by
  have product : 0 ≤ (counts.sum : ℚ) * percentile := mul_nonneg (Nat.cast_nonneg _) low
  apply Int.floor_nonneg.mpr
  linarith

/-- The rank never exceeds the number of events. -/
theorem nmax_le_sum (percentile : ℚ) (high : percentile ≤ 100) :
    nmax counts percentile ≤ counts.sum := by
  have product : (counts.sum : ℚ) * percentile ≤ counts.sum * 100 :=
    mul_le_mul_of_nonneg_left high (Nat.cast_nonneg _)
  have below : nmax counts percentile < (counts.sum : ℤ) + 1 := by
    apply Int.floor_lt.mpr
    rw [Int.cast_add, Int.cast_natCast, Int.cast_one]
    linarith
  exact Int.lt_add_one_iff.mp below

theorem nmax_mono (p q : ℚ) (ordered : p ≤ q) : nmax counts p ≤ nmax counts q := by
  have product : (counts.sum : ℚ) * p ≤ counts.sum * q :=
    mul_le_mul_of_nonneg_left ordered (Nat.cast_nonneg _)
  apply Int.floor_le_floor
  linarith

theorem index_mono (p q : ℚ) (i j : Nat) (first : PercentileIndex counts p i)
    (second : PercentileIndex counts q j) (ordered : p ≤ q) : i ≤ j := by
  by_contra above
  have short := first.least j (Nat.lt_of_not_le above)
  have enough := second.reached
  have ranks : nmax counts p ≤ nmax counts q := nmax_mono p q ordered
  omega

theorem index_unique (p : ℚ) (i j : Nat) (first : PercentileIndex counts p i)
    (second : PercentileIndex counts p j) : i = j :=
  Nat.le_antisymm (index_mono p p i j first second le_rfl)
    (index_mono p p j i second first le_rfl)

end Percentiles

/-! The search. -/
section Search
variable {size : Nat}

/-- While the running count does not wrap, the loop ends on the first bucket that
reaches the rank. -/
theorem bucket_at_rank (top ncur : UInt64) (counts : List UInt64)
    (room : ncur.toNat + (counts.map UInt64.toNat).sum < 2 ^ 64)
    (reached : top.toNat ≤ ncur.toNat + (counts.map UInt64.toNat).sum) (some_ : counts ≠ []) :
    bucketAtRank top ncur counts < counts.length ∧
      top.toNat ≤ ncur.toNat +
        prefixSum (counts.map UInt64.toNat) (bucketAtRank top ncur counts) ∧
      ∀ j < bucketAtRank top ncur counts,
        ncur.toNat + prefixSum (counts.map UInt64.toNat) j < top.toNat := by
  -- on the buckets left; `ncur` counts those before them
  induction counts generalizing ncur with
  | nil => exact absurd rfl some_
  | cons count rest ih =>
      rw [List.map_cons, List.sum_cons] at room reached
      have sum : (ncur + count).toNat = ncur.toNat + count.toNat := by
        rw [UInt64.toNat_add]
        exact Nat.mod_eq_of_lt (by omega)
      rw [bucketAtRank, List.map_cons]
      by_cases enough : top ≤ ncur + count
      · have first := UInt64.le_iff_toNat_le.mp enough
        rw [if_pos enough, prefix_sum_zero]
        exact ⟨Nat.zero_lt_succ _, by omega, by simp⟩
      · have short := UInt64.lt_iff_toNat_lt.mp (UInt64.not_le.mp enough)
        have more : rest ≠ [] := by
          rintro rfl
          simp only [List.map_nil, List.sum_nil] at reached
          omega
        obtain ⟨inside, later, before⟩ := ih (ncur + count) (by omega) (by omega) more
        rw [if_neg enough, prefix_sum_succ]
        refine ⟨Nat.succ_lt_succ inside, by omega, fun j under => ?_⟩
        cases j with
        | zero =>
            rw [prefix_sum_zero]
            omega
        | succ j =>
            have earlier := before j (Nat.lt_of_succ_lt_succ under)
            rw [prefix_sum_succ]
            omega

/-- The buckets of an array, in order. -/
def contents (counts : Fin size → UInt64) : List Nat :=
  (List.finRange size).map fun i => (counts i).toNat

theorem contents_length (counts : Fin size → UInt64) : (contents counts).length = size := by
  simp [contents]

theorem contents_sum (counts : Fin size → UInt64) :
    (contents counts).sum = ∑ i, (counts i).toNat := (Fin.sum_univ_def _).symm

theorem contents_map (counts : Fin size → UInt64) :
    ((List.finRange size).map counts).map UInt64.toNat = contents counts := by
  simp [contents]

/-- A 64-bit total is exact as long as the numbers are small enough. -/
theorem to_nat_sum (counts : Fin size → UInt64) (exact_ : ∑ i, (counts i).toNat < 2 ^ 64) :
    (∑ i, counts i).toNat = ∑ i, (counts i).toNat := by
  have wrapped (some_ : Finset (Fin size)) :
      (∑ i ∈ some_, counts i).toNat = (∑ i ∈ some_, (counts i).toNat) % 2 ^ 64 := by
    induction some_ using Finset.induction_on with
    | empty => rfl
    | insert i rest fresh ih =>
        rw [Finset.sum_insert fresh, Finset.sum_insert fresh, UInt64.toNat_add, ih,
          Nat.add_mod_mod]
  rw [wrapped, Nat.mod_eq_of_lt exact_]

theorem rank_exact (nevents : UInt64) (counts : List Nat) (percentile : ℚ)
    (counted : nevents.toNat = counts.sum) (low : 0 ≤ percentile) (high : percentile ≤ 100) :
    ((rank nevents percentile).toNat : ℤ) = nmax counts percentile := by
  have nonneg : 0 ≤ nmax counts percentile := nmax_nonneg percentile low
  have below : nmax counts percentile ≤ counts.sum := nmax_le_sum percentile high
  have small := nevents.toNat_lt
  have floor : rank nevents percentile = UInt64.ofInt (nmax counts percentile) := by
    rw [rank, nmax, counted]
  have same : nmax counts percentile % 2 ^ 64 = nmax counts percentile :=
    Int.emod_eq_of_lt nonneg (by omega)
  rw [floor, UInt64.ofInt, same, UInt64.toNat_ofNat']
  omega

/-- With the right event count the search finds the percentile. -/
theorem search_finds (counts : Fin size → UInt64) (nevents : UInt64) (percentile : ℚ)
    (sized : 0 < size) (exact_ : ∑ i, (counts i).toNat < 2 ^ 64)
    (counted : nevents = ∑ i, counts i) (low : 0 ≤ percentile) (high : percentile ≤ 100) :
    PercentileIndex (contents counts) percentile
      (bucketAtRank (rank nevents percentile) 0 ((List.finRange size).map counts)) := by
  have total : nevents.toNat = (contents counts).sum := by
    rw [counted, to_nat_sum counts exact_, contents_sum]
  have top := rank_exact nevents (contents counts) percentile total low high
  have below : nmax (contents counts) percentile ≤ (contents counts).sum :=
    nmax_le_sum percentile high
  have room := contents_sum counts
  have some_ : (List.finRange size).map counts ≠ [] := by
    intro none_
    have listed := congrArg List.length none_
    simp only [List.length_map, List.length_finRange, List.length_nil] at listed
    omega
  obtain ⟨inside, reached, least⟩ := bucket_at_rank (rank nevents percentile) 0 _
    (by rw [contents_map, UInt64.toNat_zero]; omega)
    (by rw [contents_map, UInt64.toNat_zero]; omega) some_
  rw [contents_map, UInt64.toNat_zero] at reached
  refine ⟨?_, by omega, fun j under => ?_⟩
  · simpa [contents_length] using inside
  · have short := least j under
    rw [contents_map, UInt64.toNat_zero] at short
    omega

end Search

/-! What `sb_histogram_get_pct_intermediate` has counted is what it has gathered. -/
section Gathering
variable {size : Nat} {s t : State size}

/-- The call is between `nevents = 0` and the percentile of `temp_array`. -/
def gathering : List (Instr size) → Bool
  | .rankTemp _ :: _ => true
  | .fetch _ _ :: rest | .storeTemp _ :: rest | .addTemp _ :: rest => gathering rest
  | _ => false

/-- `temp_array` is filled between these two points and nowhere else. -/
def Staged : List (Instr size) → Prop
  | [] => True
  | .fetch _ _ :: rest | .storeTemp _ :: rest | .addTemp _ :: rest => Staged rest
  | .zeroNevents :: rest => (∀ i, tempLive rest i = false) ∧ Staged rest
  | .rankTemp _ :: rest => gathering rest = false ∧ (∀ i, tempLive rest i = true) ∧ Staged rest
  | _ :: rest => gathering rest = false ∧ Staged rest

structure Gathered (s : State size) : Prop where
  linear : Linear s.todo
  staged : Staged s.todo
  counted : gathering s.todo = true → s.nevents = ∑ i, liveTemp s i

theorem staged_drain (keep : Fin size → Instr size) (slots : List Slot)
    (rest : List (Instr size)) (filling : Bool)
    (kept : ∀ i later, gathering later = filling → Staged later →
      gathering (keep i :: later) = filling ∧ Staged (keep i :: later))
    (begins : gathering rest = filling) (staged : Staged rest) :
    gathering (slots.flatMap (drain keep) ++ rest) = filling ∧
      Staged (slots.flatMap (drain keep) ++ rest) :=
  drain_keeps (fun todo => gathering todo = filling ∧ Staged todo) keep slots rest
    (fun _ i later before => kept i later before.1 before.2) ⟨begins, staged⟩

theorem staged_merge (rest : List (Instr size)) (still : gathering rest = false)
    (staged : Staged rest) : Staged (mergeIntermediateIntoCumulative ++ rest) := by
  have drained := staged_drain .addCumulative (List.finRange nslots) (.storeNevents :: rest)
    false (fun _ _ begins later => ⟨rfl, begins, later⟩) rfl ⟨still, staged⟩
  rw [merge_append]
  exact drained

theorem staged_pours (buckets : List (Fin size)) (rest : List (Instr size))
    (still : gathering rest = false) (staged : Staged rest) :
    gathering (buckets.map .pour ++ rest) = false ∧ Staged (buckets.map .pour ++ rest) := by
  induction buckets with
  | nil => exact ⟨still, staged⟩
  | cons head tail ih => exact ⟨rfl, ih⟩

theorem staged_clears (buckets : List (Fin size)) (rest : List (Instr size))
    (still : gathering rest = false) (staged : Staged rest) :
    gathering (buckets.map .clear ++ rest) = false ∧ Staged (buckets.map .clear ++ rest) := by
  induction buckets with
  | nil => exact ⟨still, staged⟩
  | cons head tail ih => exact ⟨rfl, ih⟩

theorem program_staged (size : Nat) (operation : Operation) :
    gathering (program operation : List (Instr size)) = false ∧
      Staged (program operation : List (Instr size)) := by
  cases operation with
  | getPctIntermediate percentile =>
      have fresh := (program_resumes size (.getPctIntermediate percentile)).live
      have unlocked : Resumes ([.addNevents, .unlock] : List (Instr size)) fun _ => false :=
        ⟨rfl, fun _ => rfl, rfl, rfl, trivial⟩
      have full := (resumes_pours (List.finRange size) _ (List.nodup_finRange size) unlocked).live
      have poured := staged_pours (List.finRange size) [.addNevents, .unlock] rfl
        ⟨rfl, rfl, trivial⟩
      have ranked : Staged (.rankTemp percentile :: ((List.finRange size).map .pour ++
          [.addNevents, .unlock])) := ⟨poured.1, fun i => by simp [full], poured.2⟩
      have added := staged_drain .addTemp ((List.finRange nslots).drop 1) _ true
        (fun _ _ begins later => ⟨begins, later⟩) rfl ranked
      have stored := staged_drain .storeTemp [0] _ true
        (fun _ _ begins later => ⟨begins, later⟩) added.1 added.2
      rw [List.flatMap_singleton] at stored
      exact ⟨rfl, rfl, fresh, stored.2⟩
  | getPctCumulative percentile =>
      exact ⟨rfl, rfl, staged_merge _ rfl ⟨rfl, rfl, trivial⟩⟩
  | getPctCheckpoint percentile =>
      have cleared := staged_clears (List.finRange size) [.clearNevents, .unlock] rfl
        ⟨rfl, rfl, trivial⟩
      exact ⟨rfl, rfl, staged_merge _ rfl cleared⟩
  | print => exact ⟨rfl, rfl, staged_merge _ rfl ⟨rfl, rfl, trivial⟩⟩

theorem staged_tail (instr : Instr size) (rest : List (Instr size))
    (staged : Staged (instr :: rest)) : Staged rest := by
  cases instr
  case fetch | storeTemp | addTemp => exact staged
  case rankTemp => exact staged.2.2
  all_goals exact staged.2

/-- What is added to a live element of `temp_array` is added to the event count. -/
theorem gathered_added (i : Fin size) (counted : s.nevents = ∑ j, liveTemp s j)
    (live : liveTemp t = Function.update (liveTemp s) i (liveTemp s i + s.t)) :
    s.nevents + s.t = ∑ j, liveTemp t j := by
  rw [live, sum_add, counted]

theorem exec_gathered (instr : Instr size) (rest : List (Instr size))
    (listed : s.todo = instr :: rest) (linear : Linear (instr :: rest))
    (staged : Staged (instr :: rest))
    (counted : gathering (instr :: rest) = true → s.nevents = ∑ i, liveTemp s i)
    (filling : gathering rest = true) :
    (exec s instr).nevents = ∑ i, liveTemp { exec s instr with todo := rest } i := by
  cases instr
  case zeroNevents =>
    have none_ (i : Fin size) : liveTemp { exec s .zeroNevents with todo := rest } i = 0 := by
      simp [liveTemp, staged.1 i]
    simp only [none_, Finset.sum_const_zero]
    rfl
  case fetch slot j =>
    have same : liveTemp { exec s (.fetch slot j) with todo := rest } = liveTemp s := by
      funext i
      simp only [liveTemp, exec, listed, tempLive]
    rw [same]
    exact counted filling
  case storeTemp j | addTemp j =>
    refine gathered_added j (counted filling) ?_
    funext i
    by_cases here : i = j
    · subst here
      simp [liveTemp, exec, listed, tempLive, linear.2.1]
    · simp [liveTemp, exec, listed, tempLive, here]
  -- every other instruction is outside the part that fills the array
  all_goals exact absurd filling (by simp [staged.1])

theorem step_gathered (s : State size) (a : Action) (t : State size) (gathered : Gathered s)
    (taken : step s a = some t) : Gathered t := by
  have linear := step_linear s a t gathered.linear taken
  cases a with
  | update slot raw =>
      obtain ⟨i, _, rfl⟩ := Option.map_eq_some_iff.mp taken
      exact ⟨linear, gathered.staged, gathered.counted⟩
  | call operation =>
      obtain ⟨_, taken⟩ := Option.ite_none_right_eq_some.mp taken
      obtain rfl := Option.some.inj taken
      obtain ⟨still, staged⟩ := program_staged size operation
      refine ⟨linear, staged, fun filling => ?_⟩
      rw [still] at filling
      cases filling
  | proceed relock =>
      have staged := gathered.staged
      have counted := gathered.counted
      obtain ⟨instr, rest, listed, ⟨rfl, _⟩ | ⟨_, _, rfl⟩⟩ := proceed_cases taken
      · have before := gathered.linear
        rw [listed] at before staged counted
        exact ⟨linear, staged_tail instr rest staged,
          exec_gathered instr rest listed before staged counted⟩
      · exact ⟨linear, trivial, nofun⟩

theorem idle_gathered (s : State size) (idle : s.todo = []) : Gathered s := by
  refine ⟨?_, ?_, ?_⟩ <;> rw [idle]
  · trivial
  · trivial
  · nofun

/-- Where the percentile of `temp_array` is computed, `nevents` is its sum. -/
theorem gathered_total (gathered : Gathered s) (percentile : ℚ) (rest : List (Instr size))
    (listed : s.todo = .rankTemp percentile :: rest) : s.nevents = ∑ i, s.tempArray i := by
  have staged := gathered.staged
  have counted := gathered.counted
  rw [listed] at staged counted
  have live (i : Fin size) : liveTemp s i = s.tempArray i := by
    simp [liveTemp, listed, tempLive, staged.2.1 i]
  simpa only [live] using counted rfl

end Gathering

/-! A call with no update beside it. -/
section Alone
variable {size : Nat} {s : State size}

theorem exec_resumed (s : State size) (instr : Instr size) (todo : List (Instr size)) :
    exec { s with todo } instr = { exec s instr with todo } := by
  cases instr <;> rfl

/-- An instruction that neither waits nor returns early nor discards anything. -/
structure Plain (instr : Instr size) : Prop where
  waits : instr ≠ .lock
  returns : instr ≠ .returnIfEmpty
  keeps : ∀ i, instr ≠ .clear i

theorem exec_foldl (s : State size) (block todo : List (Instr size)) :
    block.foldl exec { s with todo } = { block.foldl exec s with todo } := by
  induction block generalizing s with
  | nil => rfl
  | cons instr rest ih => rw [List.foldl_cons, exec_resumed, ih, List.foldl_cons]

/-- A block without a lock or an early return is executed to its end. -/
theorem run_block (block rest : List (Instr size))
    (plain : ∀ instr ∈ block, Plain instr) (s : State size)
    (listed : s.todo = block ++ rest) :
    run step s (List.replicate block.length (.proceed .waits)) =
      some { block.foldl exec s with todo := rest } := by
  induction block generalizing s with
  | nil =>
      rw [List.nil_append] at listed
      simp [run, ← listed]
  | cons instr later ih =>
      obtain ⟨here, after⟩ := List.forall_mem_cons.mp plain
      have first : step s (.proceed .waits) =
          some { exec s instr with todo := later ++ rest } := by
        rw [List.cons_append] at listed
        cases instr
        case lock => exact absurd rfl here.waits
        case returnIfEmpty => exact absurd rfl here.returns
        case clear i => exact absurd rfl (here.keeps i)
        all_goals
          simp only [step, proceed, discards, listed]
          rfl
      rw [List.length_cons, List.replicate_succ, run, first, Option.bind_some, ih after _ rfl,
        exec_foldl, List.foldl_cons]

/-- What `keep` does with a fetched count: it is combined into one element of an array. -/
structure Sink (keep : Fin size → Instr size) (array : State size → Fin size → UInt64)
    (combine : UInt64 → UInt64 → UInt64) : Prop where
  fetched : ∀ s slot i, array (exec s (.fetch slot i)) = array s
  kept : ∀ s i, array (exec s (keep i)) = Function.update (array s) i (combine (array s i) s.t)
  slots : ∀ s i, (exec s (keep i)).intermSlots = s.intermSlots

variable {keep : Fin size → Instr size} {array : State size → Fin size → UInt64}
  {combine : UInt64 → UInt64 → UInt64}

theorem store_temp_sink : Sink .storeTemp (State.tempArray : State size → _) fun _ t => t :=
  ⟨fun _ _ _ => rfl, fun _ _ => rfl, fun _ _ => rfl⟩

theorem add_temp_sink : Sink .addTemp (State.tempArray : State size → _) (· + ·) :=
  ⟨fun _ _ _ => rfl, fun _ _ => rfl, fun _ _ => rfl⟩

theorem add_cumulative_sink :
    Sink .addCumulative (State.cumulativeArray : State size → _) (· + ·) :=
  ⟨fun _ _ _ => rfl, fun _ _ => rfl, fun _ _ => rfl⟩

theorem buckets_drained (sink : Sink keep array combine) (slot : Slot)
    (buckets : List (Fin size)) (noDup : buckets.Nodup) (s : State size) :
    (∀ i, array ((buckets.flatMap fun i => [.fetch slot i, keep i]).foldl exec s) i =
        if i ∈ buckets then combine (array s i) (s.intermSlots slot i) else array s i) ∧
      ∀ other, other ≠ slot →
        ((buckets.flatMap fun i => [.fetch slot i, keep i]).foldl exec s).intermSlots other =
          s.intermSlots other := by
  induction buckets generalizing s with
  | nil => simp
  | cons head tail ih =>
      obtain ⟨fresh, tailNoDup⟩ := List.nodup_cons.mp noDup
      obtain ⟨arrays, slots⟩ := ih tailNoDup (exec (exec s (.fetch slot head)) (keep head))
      rw [List.flatMap_cons, List.foldl_append, List.foldl_cons, List.foldl_cons, List.foldl_nil]
      refine ⟨fun i => ?_, fun other apart => ?_⟩
      · rw [arrays, sink.slots, sink.kept, sink.fetched]
        by_cases here : i = head
        · subst here
          simp [fresh, exec]
        · simp [here, exec, setSlot]
      · rw [slots other apart, sink.slots]
        simp [exec, setSlot, apart]

theorem drained (sink : Sink keep array combine) (slot : Slot) (s : State size) :
    (array ((drain keep slot).foldl exec s) =
        fun i => combine (array s i) (s.intermSlots slot i)) ∧
      ∀ other, other ≠ slot →
        ((drain keep slot).foldl exec s).intermSlots other = s.intermSlots other := by
  obtain ⟨arrays, slots⟩ :=
    buckets_drained sink slot (List.finRange size) (List.nodup_finRange size) s
  refine ⟨?_, slots⟩
  funext i
  have here := arrays i
  rw [if_pos (List.mem_finRange i)] at here
  exact here

/-- Draining slots adds their counts up. -/
theorem slots_drained (sink : Sink keep array (· + ·)) (slots : List Slot)
    (noDup : slots.Nodup) (s : State size) :
    array ((slots.flatMap (drain keep)).foldl exec s) =
      fun i => array s i + (slots.map fun slot => s.intermSlots slot i).sum := by
  induction slots generalizing s with
  | nil => simp
  | cons head tail ih =>
      obtain ⟨fresh, tailNoDup⟩ := List.nodup_cons.mp noDup
      obtain ⟨arrays, slots⟩ := drained sink head s
      rw [List.flatMap_cons, List.foldl_append, ih tailNoDup, arrays]
      funext i
      have same : (tail.map fun slot => ((drain keep head).foldl exec s).intermSlots slot i) =
          tail.map fun slot => s.intermSlots slot i := by
        apply List.map_congr_left
        intro slot member
        rw [slots slot (ne_of_mem_of_not_mem member fresh)]
      rw [same, List.map_cons, List.sum_cons, add_assoc]

/-- A call that takes the lock runs a block without a lock or an early return to its end. -/
theorem run_call (operation : Operation) (block rest : List (Instr size)) (idle : s.todo = [])
    (free : s.locked = false) (body : program operation = .lock :: (block ++ rest))
    (plain : ∀ instr ∈ block, Plain instr) :
    run step s (.call operation :: List.replicate (block.length + 1) (.proceed .waits)) =
      some { block.foldl exec (exec s .lock) with todo := rest } := by
  have called : step s (.call operation) = some { s with todo := program operation } := by
    simp [step, idle]
  have locked : step { s with todo := program operation } (.proceed .waits) =
      some { exec s .lock with todo := block ++ rest } := by
    rw [body]
    simp [step, proceed, discards, free, exec]
  rw [run, called, Option.bind_some, List.replicate_succ, run, locked, Option.bind_some,
    run_block block rest plain _ rfl, exec_foldl]

/-- What the slots hold of each bucket. -/
noncomputable def slotTotals (s : State size) (i : Fin size) : UInt64 :=
  ((List.finRange nslots).map fun slot => s.intermSlots slot i).sum

theorem drain_plain (keep : Fin size → Instr size) (kept : ∀ i, Plain (keep i))
    (slots : List Slot) : ∀ instr ∈ slots.flatMap (drain keep), Plain instr :=
  drain_forall keep slots (fun _ _ => ⟨nofun, nofun, nofun⟩) kept

/-- `temp_array` is the merged interval. -/
theorem intermediate_merges (s : State size) (percentile : ℚ) (idle : s.todo = [])
    (free : s.locked = false) : ∃ schedule t rest, run step s schedule = some t ∧
      t.todo = .rankTemp percentile :: rest ∧ t.tempArray = slotTotals s := by
  obtain ⟨later, first⟩ : ∃ later, List.finRange nslots = 0 :: later :=
    ⟨_, List.finRange_succ⟩
  have dropped : (List.finRange nslots).drop 1 = later := by rw [first]; rfl
  have noDup := List.nodup_finRange nslots
  rw [first, List.nodup_cons] at noDup
  have body : program (.getPctIntermediate percentile) = Instr.lock ::
      ((.zeroNevents :: (drain .storeTemp 0 ++ later.flatMap (drain .addTemp))) ++
        .rankTemp percentile :: ((List.finRange size).map .pour ++ [.addNevents, .unlock])) := by
    simp [program, sbHistogramGetPctIntermediate, dropped]
  have stores := drain_plain (Instr.storeTemp : Fin size → _) (fun _ => ⟨nofun, nofun, nofun⟩) [0]
  rw [List.flatMap_singleton] at stores
  have adds := drain_plain (Instr.addTemp : Fin size → _) (fun _ => ⟨nofun, nofun, nofun⟩) later
  have plain : ∀ instr ∈ (.zeroNevents :: (drain .storeTemp 0 ++
      later.flatMap (drain .addTemp)) : List (Instr size)), Plain instr :=
    List.forall_mem_cons.mpr ⟨⟨nofun, nofun, nofun⟩, List.forall_mem_append.mpr ⟨stores, adds⟩⟩
  refine ⟨_, _, _, run_call _ _ _ idle free body plain, rfl, ?_⟩
  obtain ⟨arrays, slots⟩ := drained store_temp_sink 0 (exec (exec s .lock) .zeroNevents)
  simp only [List.foldl_append, List.foldl_cons]
  rw [slots_drained add_temp_sink later noDup.2, arrays]
  funext i
  have same : (later.map fun slot =>
      ((drain .storeTemp 0).foldl exec (exec (exec s .lock) .zeroNevents)).intermSlots slot i) =
      later.map fun slot => s.intermSlots slot i := by
    apply List.map_congr_left
    intro slot member
    rw [slots slot (ne_of_mem_of_not_mem member noDup.1)]
    rfl
  rw [same, slotTotals, first, List.map_cons, List.sum_cons]
  rfl

/-- `cumulative_array` takes the slots in. -/
theorem cumulative_merges (s : State size) (percentile : ℚ) (idle : s.todo = [])
    (free : s.locked = false) : ∃ schedule t rest, run step s schedule = some t ∧
      t.todo = .rankCumulative percentile :: rest ∧
      t.cumulativeArray = fun i => s.cumulativeArray i + slotTotals s i := by
  have body : program (.getPctCumulative percentile) = Instr.lock ::
      (mergeIntermediateIntoCumulative ++ [.rankCumulative percentile, .unlock] :
        List (Instr size)) := rfl
  have plain : ∀ instr ∈ (mergeIntermediateIntoCumulative : List (Instr size)), Plain instr :=
    merge_forall ⟨nofun, nofun, nofun⟩ (fun _ _ => ⟨nofun, nofun, nofun⟩)
      (fun _ => ⟨nofun, nofun, nofun⟩) ⟨nofun, nofun, nofun⟩
  refine ⟨_, _, _, run_call _ _ _ idle free body plain, rfl, ?_⟩
  have merged := slots_drained add_cumulative_sink (List.finRange nslots)
    (List.nodup_finRange nslots) (exec (exec s .lock) .loadNevents)
  simp only [mergeIntermediateIntoCumulative, List.foldl_append, List.foldl_cons,
    List.foldl_nil]
  exact merged

end Alone

/-! The claims about both paths. -/
section Indices
variable {size : Nat} {counts : Fin size → UInt64} {percentile : ℚ}

/-- Some call of `sb_histogram_get_pct_intermediate`, beside any updates, chooses `i`
for a `temp_array` of these counts. -/
def IntermediateIndex (counts : Fin size → UInt64) (percentile : ℚ) (i : Nat) : Prop :=
  ∃ (s t : State size) (schedule : List Action) (rest : List (Instr size)),
    s.todo = [] ∧ run step s schedule = some t ∧ t.todo = .rankTemp percentile :: rest ∧
      t.tempArray = counts ∧ (exec t (.rankTemp percentile)).result = i

/-- `get_pct_cumulative` chooses `i` for a `cumulative_array` of these counts, in a
histogram whose event count was that of its buckets. -/
def CumulativeIndex (counts : Fin size → UInt64) (percentile : ℚ) (i : Nat) : Prop :=
  ∃ (s t : State size) (schedule : List Action) (rest : List (Instr size)),
    s.todo = [] ∧ s.cumulativeNevents = ∑ j, s.cumulativeArray j ∧
      run step s schedule = some t ∧ t.todo = .rankCumulative percentile :: rest ∧
      t.cumulativeArray = counts ∧ (exec t (.rankCumulative percentile)).result = i

theorem intermediate_chooses (counts : Fin size → UInt64) (percentile : ℚ) :
    ∃ i, IntermediateIndex counts percentile i := by
  let s : State size :=
    { sbHistogramNew size 0 with intermSlots := Function.update (fun _ _ => 0) 0 counts }
  obtain ⟨schedule, t, rest, reached, listed, merged⟩ :=
    intermediate_merges s percentile rfl rfl
  refine ⟨_, s, t, schedule, rest, rfl, reached, listed, ?_, rfl⟩
  rw [merged]
  funext i
  have others (slot : Slot) (apart : slot ≠ 0) : s.intermSlots slot i = 0 := by
    simp [s, apart]
  rw [slotTotals, ← Fin.sum_univ_def, Fintype.sum_eq_single 0 others]
  simp [s]

theorem cumulative_chooses (counts : Fin size → UInt64) (percentile : ℚ) :
    ∃ i, CumulativeIndex counts percentile i := by
  let s : State size :=
    { sbHistogramNew size (∑ i, counts i) with cumulativeArray := counts }
  obtain ⟨schedule, t, rest, reached, listed, merged⟩ := cumulative_merges s percentile rfl rfl
  refine ⟨_, s, t, schedule, rest, rfl, rfl, reached, listed, ?_, rfl⟩
  rw [merged]
  funext i
  have none_ : slotTotals s i = 0 := by
    rw [slotTotals, ← Fin.sum_univ_def]
    exact Finset.sum_const_zero
  rw [none_, add_zero]

theorem intermediate_index (sized : 0 < size) (exact_ : ∑ i, (counts i).toNat < 2 ^ 64)
    (low : 0 ≤ percentile) (high : percentile ≤ 100) (i : Nat)
    (chosen : IntermediateIndex counts percentile i) :
    PercentileIndex (contents counts) percentile i := by
  obtain ⟨s, t, schedule, rest, idle, reached, listed, rfl, rfl⟩ := chosen
  have all := invariant_keeps step_gathered s (schedule ++ []) (idle_gathered s idle)
  have gathered := always_reached s t schedule [] all reached
  exact search_finds t.tempArray t.nevents percentile sized exact_
    (gathered_total gathered percentile rest listed) low high

theorem cumulative_index (sized : 0 < size) (exact_ : ∑ i, (counts i).toNat < 2 ^ 64)
    (low : 0 ≤ percentile) (high : percentile ≤ 100) (i : Nat)
    (chosen : CumulativeIndex counts percentile i) :
    PercentileIndex (contents counts) percentile i := by
  obtain ⟨s, t, schedule, rest, idle, counted, reached, listed, rfl, rfl⟩ := chosen
  have all := invariant_keeps step_summed s (schedule ++ []) (idle_summed s idle counted)
  have summed := always_reached s t schedule [] all reached
  exact search_finds t.cumulativeArray t.cumulativeNevents percentile sized exact_
    (summed_counts t summed (Or.inr ⟨percentile, rest, listed⟩)) low high

/-- On equal contents both paths choose the one index of the percentile, and a higher
percentile chooses no lower index. -/
theorem paths_choose_percentile (counts : Fin size → UInt64) (sized : 0 < size)
    (exact_ : ∑ i, (counts i).toNat < 2 ^ 64) (percentile : ℚ) (low : 0 ≤ percentile)
    (high : percentile ≤ 100) :
    ∃ i, i < size ∧ PercentileIndex (contents counts) percentile i ∧
      (∀ j, IntermediateIndex counts percentile j ↔ j = i) ∧
      (∀ j, CumulativeIndex counts percentile j ↔ j = i) ∧
      ∀ higher j, percentile ≤ higher → higher ≤ 100 →
        IntermediateIndex counts higher j ∨ CumulativeIndex counts higher j → i ≤ j := by
  obtain ⟨i, chosen⟩ := intermediate_chooses counts percentile
  obtain ⟨k, chosenToo⟩ := cumulative_chooses counts percentile
  have index := intermediate_index sized exact_ low high i chosen
  have same : k = i :=
    index_unique percentile k i (cumulative_index sized exact_ low high k chosenToo) index
  subst same
  refine ⟨k, ?_, index, fun j => ⟨fun other => ?_, ?_⟩, fun j => ⟨fun other => ?_, ?_⟩, ?_⟩
  · simpa only [contents_length] using index.inside
  · exact index_unique percentile j k (intermediate_index sized exact_ low high j other) index
  · rintro rfl
    exact chosen
  · exact index_unique percentile j k (cumulative_index sized exact_ low high j other) index
  · rintro rfl
    exact chosenToo
  · intro higher j ordered bounded later
    have above : 0 ≤ higher := low.trans ordered
    rcases later with later | later
    · exact index_mono percentile higher k j index
        (intermediate_index sized exact_ above bounded j later) ordered
    · exact index_mono percentile higher k j index
        (cumulative_index sized exact_ above bounded j later) ordered

/-- The median of a bucket with one event and a bucket with three. -/
theorem median_of_four :
    ∃ i, i < 2 ∧ PercentileIndex (contents ![1, 3]) 50 i ∧
      (∀ j, IntermediateIndex ![1, 3] 50 j ↔ j = i) ∧
      (∀ j, CumulativeIndex ![1, 3] 50 j ↔ j = i) ∧
      ∀ higher j, 50 ≤ higher → higher ≤ 100 →
        IntermediateIndex ![1, 3] higher j ∨ CumulativeIndex ![1, 3] higher j → i ≤ j :=
  paths_choose_percentile ![1, 3] Nat.zero_lt_two (by decide) 50 (by norm_num) (by norm_num)

/-- A histogram without buckets has no index below its size. -/
theorem no_bucket_no_index :
    ¬ ∀ i, IntermediateIndex (fun _ : Fin 0 => 0) 50 i → i < 0 := by
  intro below
  obtain ⟨i, chosen⟩ := intermediate_chooses (fun _ : Fin 0 => 0) 50
  exact Nat.not_lt_zero i (below i chosen)

end Indices
end PteSysbench.HistogramPercentile
