import Mathlib.Data.List.FinRange
import Mathlib.Logic.Function.Basic

/-!
test5.c: some pages are filled, and read again after the calls that expand their page
table. Each call may leave the virtual pages on other physical pages than before.
-/

namespace PteSysbench.PageOracle

/-- `(uint8_t)(i & 0xFF)`. -/
def patternByte (i : Nat) : UInt8 := .ofNat (i &&& 0xFF)

def fill (b : List UInt8) (n : Nat) : List UInt8 :=
  (List.range n).foldl (fun b i => b.set i (patternByte i)) b

/-- Every way to `exit(EXIT_FAILURE)` after the allocation. -/
inductive Failure where
  | mismatch (stage : String) (i : Nat) (byte : UInt8)
  | call (name : String)
  | getPteMeta (page : Nat)
  | metadata (page : Nat) (expected retrieved : UInt64)
  deriving DecidableEq, Repr

def verifyPattern (stage : String) (b : List UInt8) (n : Nat) : Except Failure Unit :=
  (List.range n).forM fun i =>
    if b[i]? = some (patternByte i) then .ok ()
    else .error (.mismatch stage i (b.getD i 0))

/-- What the calls do: their results, and the physical page of each virtual one after them.
`retrieved` is what `get_pte_meta` stores. -/
structure Kernel (k : Nat) where
  result : Nat → Int
  retrieved : Fin k → UInt64
  table : Nat → Fin k → Fin k

section Code
variable {k : Nat} (kernel : Kernel k) (frames : Fin k → List UInt8) (ps : Nat)

def callOrDie (call : Nat) (name : String) : Except Failure Unit :=
  if kernel.result call < 0 then .error (.call name) else .ok ()

def metaValue (i : Fin k) : UInt64 := 0xDEADBEEF00000000 ||| .ofNat i

/-- `verify_pattern(stage, pages[i], ps)` after that many calls. -/
def verifyPage (calls : Nat) (stage : String) (i : Fin k) : Except Failure Unit :=
  -- before the first call every page is still where it was filled
  let frame := if calls = 0 then i else kernel.table (calls - 1) i
  verifyPattern (stage ++ " page " ++ toString i) (frames frame) ps

def testMultiplePages : Except Failure Unit := do
  callOrDie kernel 0 "enable_pte_meta"
  (List.finRange k).forM fun i => do
    callOrDie kernel (1 + i) ("set_pte_meta page " ++ toString i)
    verifyPage kernel frames ps (2 + i) "set_pte_meta" i
  (List.finRange k).forM fun i => do
    if kernel.result (1 + k + i) < 0 then .error (.getPteMeta i)
    else if kernel.retrieved i ≠ metaValue i then
      .error (.metadata i (metaValue i) (kernel.retrieved i))
    else verifyPage kernel frames ps (2 + k + i) "get_pte_meta" i

/-- The loop of `main`; the physical pages are numbered by the virtual ones they have then. -/
def fillPages : Fin k → List UInt8 := fun i => fill (frames i) ps

def main : Except Failure Unit := do
  let frames := fillPages frames ps
  (List.finRange k).forM (verifyPage kernel frames ps 0 "initial fill")
  testMultiplePages kernel frames ps
  callOrDie kernel (1 + 2 * k) "disable_pte_meta"
  (List.finRange k).forM (verifyPage kernel frames ps (2 + 2 * k) "post-disable")

end Code

/-! Pages and their contents. -/
section Contents
variable {b : List UInt8} {n : Nat}

theorem fill_succ (b : List UInt8) (n : Nat) :
    fill b (n + 1) = (fill b n).set n (patternByte n) := by
  rw [fill, List.range_succ, List.foldl_append]
  rfl

theorem fill_length (b : List UInt8) (n : Nat) : (fill b n).length = b.length := by
  induction n with
  | zero => rfl
  | succ n ih => rw [fill_succ, List.length_set, ih]

theorem fill_get (b : List UInt8) (n i : Nat) :
    (fill b n)[i]? = if i < n ∧ i < b.length then some (patternByte i) else b[i]? := by
  induction n with
  | zero => simp [fill]
  | succ n ih =>
      rw [fill_succ, List.getElem?_set, ih, fill_length]
      by_cases same : n = i
      · subst same
        by_cases inside : n < b.length
        · simp [inside]
        · simp [inside]
      · by_cases before : i < n
        · simp [same, before, Nat.lt_succ_of_lt before]
        · simp [same, before, show ¬ i < n + 1 by omega]

/-- The bytes do not depend on the page. -/
theorem fill_eq (sized : b.length = n) : fill b n = (List.range n).map patternByte := by
  refine List.ext_getElem? fun i => ?_
  rw [fill_get, List.getElem?_map]
  by_cases inside : i < n
  · rw [if_pos ⟨inside, sized ▸ inside⟩, List.getElem?_range inside, Option.map_some]
  · rw [if_neg fun both => inside both.1, List.getElem?_eq_none (by omega),
      List.getElem?_eq_none (by simp; omega), Option.map_none]

theorem for_each_ok {α : Type} {body : α → Except Failure Unit} {items : List α}
    (all : ∀ item ∈ items, body item = .ok ()) : items.forM body = .ok () := by
  induction items with
  | nil => rfl
  | cons item rest ih =>
      rw [List.forM_eq_forM, List.forM_cons, all item List.mem_cons_self]
      exact ih fun other member => all other (List.mem_cons_of_mem item member)

theorem verify_filled (stage : String) (sized : b.length = n) :
    verifyPattern stage (fill b n) n = .ok () := by
  refine for_each_ok fun i member => ?_
  have inside := List.mem_range.mp member
  exact if_pos (by rw [fill_get, if_pos ⟨inside, sized ▸ inside⟩])
end Contents

/-! Remapped pages. -/
section Remaps
variable {k : Nat} {frames : Fin k → List UInt8} {ps : Nat}

/-- Some `verify_pattern` fails when page `i` is on the physical page `remap i`. -/
def Detects (frames : Fin k → List UInt8) (ps : Nat) (remap : Fin k → Fin k) : Prop :=
  ∃ stage i failure, verifyPattern stage (fillPages frames ps (remap i)) ps = .error failure

theorem filled_alike (sized : ∀ i, (frames i).length = ps) (i j : Fin k) :
    fillPages frames ps i = fillPages frames ps j := by
  rw [fillPages, fillPages, fill_eq (sized i), fill_eq (sized j)]

theorem undetected (sized : ∀ i, (frames i).length = ps) (remap : Fin k → Fin k) :
    ¬ Detects frames ps remap := by
  rintro ⟨stage, i, failure, failed⟩
  rw [fillPages, verify_filled stage (sized (remap i))] at failed
  cases failed

theorem verify_page_filled (sized : ∀ i, (frames i).length = ps) (kernel : Kernel k)
    (calls : Nat) (stage : String) :
    verifyPage kernel (fillPages frames ps) ps calls stage = fun _ => .ok () :=
  funext fun _ => verify_filled _ (sized _)

/-- The whole test goes as if no page had ever moved. -/
theorem main_ignores_table (sized : ∀ i, (frames i).length = ps) (kernel : Kernel k) :
    main kernel frames ps = main { kernel with table := fun _ => id } frames ps := by
  -- every check passes, and nothing else in `main` looks at the table
  have filled := verify_page_filled sized
  simp only [main, testMultiplePages, filled]
  rfl

theorem rotation_undetected :
    ¬ Detects (fun _ : Fin 4 => List.replicate 4096 0) 4096 (fun i => i + 1) ∧
      ¬ Function.Injective (fillPages (fun _ : Fin 4 => List.replicate 4096 0) 4096) := by
  have sized : ∀ i : Fin 4, ((fun _ => List.replicate 4096 0) i : List UInt8).length = 4096 :=
    fun _ => List.length_replicate
  exact ⟨undetected sized _, fun distinct =>
    absurd (distinct (filled_alike sized 0 1)) (by decide)⟩

/-- No remapping of filled pages is ever noticed: they all have the same contents. -/
theorem oracle_never_detects (ps k : Nat) (frames : Fin k → List UInt8)
    (sized : ∀ i, (frames i).length = ps) (remap : Fin k → Fin k) (moved : remap ≠ id) :
    ¬ Detects frames ps remap ∧ ¬ Function.Injective (fillPages frames ps) ∧
      ∀ kernel : Kernel k,
        main kernel frames ps = main { kernel with table := fun _ => id } frames ps := by
  refine ⟨undetected sized remap, fun distinct => moved ?_, main_ignores_table sized⟩
  exact funext fun i => distinct (filled_alike sized (remap i) i)

theorem oracle_never_detects_two :
    ¬ Detects (fun _ : Fin 2 => [7]) 1 (fun i => i + 1) ∧
      ¬ Function.Injective (fillPages (fun _ : Fin 2 => [7]) 1) := by
  have moved : (fun i : Fin 2 => i + 1) ≠ id := fun same =>
    absurd (congrFun same 0) (by decide)
  obtain ⟨blind, alike, -⟩ := oracle_never_detects 1 2 (fun _ => [7]) (fun _ => rfl) _ moved
  exact ⟨blind, alike⟩
end Remaps

end PteSysbench.PageOracle
