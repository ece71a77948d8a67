import PteSysbench.SequentialTiles
import Mathlib.Data.List.Chain

/-!
`check_seq_req`, the check of `--validate` on the requests of `file_get_seq_request`: it
works out for itself which request may follow which.
-/

namespace PteSysbench.SequentialChecker

open FileRequests SequentialTiles Tiling

/-! `check_seq_req`. -/
section Checker

/-- A value printed with `%d`. -/
def printedInt (value : Int) : String := toString (Int.bmod value (2 ^ 32))

def requestLine (which : String) (request : FileRequest) : String :=
  which ++ ": file_id: " ++ printedInt request.fileId ++ ", pos: " ++ printedInt request.pos ++
    "  size: " ++ printedInt request.size

/-- The warnings. `file_id` is unsigned, and so is a difference of two of them. -/
def checkSeqReq (cfg : FileConfig) (prevReq r : FileRequest) : List String :=
  if r.operation = .fsync ∨ r.operation = .null then []
  else if prevReq.operation = .null then []
  else if ((r.fileId : Int) - prevReq.fileId) % 2 ^ 32 > 1 ∧
      ¬ (r.fileId = 0 ∧ prevReq.fileId = cfg.sizes.numFiles - 1) then
    ["Discovered too large file difference in seq requests!"]
  else if r.fileId = prevReq.fileId then
    if r.pos - prevReq.pos ≠ prevReq.size then
      ["Discovered too large position difference in seq request!"]
    else []
  else if prevReq.pos + prevReq.size ≠ cfg.fileSize ∨ r.pos ≠ 0 then
    ["Invalid file switch found!", requestLine "Old" prevReq, requestLine "New" r]
  else []

/-- `prev_req` as `init_vars` leaves it. -/
def nullRequest : FileRequest := { operation := .null, fileId := 0, pos := 0, size := 0 }

/-- `file_get_seq_request` with `validate`: the fsync branch returns in front of the check. -/
structure Checked where
  generator : GeneratorState
  prevReq : FileRequest
  warnings : List String

def checkedRequest (cfg : FileConfig) (s : Checked) : FileRequest × Checked :=
  let (request, generator) := fileGetSeqRequest cfg s.generator
  if cfg.validate && isData request then
    (request, {
      generator := generator
      prevReq := request
      warnings := s.warnings ++ checkSeqReq cfg s.prevReq request })
  else (request, { s with generator := generator })

def Silent (cfg : FileConfig) (prevReq r : FileRequest) : Prop := checkSeqReq cfg prevReq r = []

instance (cfg : FileConfig) (prevReq r : FileRequest) : Decidable (Silent cfg prevReq r) :=
  inferInstanceAs (Decidable (_ = _))

/-- What may follow a request: the next bytes of its file, or behind the end of the file
the start of the next file in the cycle. -/
def Follows (cfg : FileConfig) (prevReq r : FileRequest) : Prop :=
  (r.fileId = prevReq.fileId ∧ r.pos = prevReq.pos + prevReq.size) ∨
    (prevReq.pos + prevReq.size = cfg.fileSize ∧ r.pos = 0 ∧
      r.fileId = (prevReq.fileId + 1) % cfg.sizes.numFiles)

variable {cfg : FileConfig} {prevReq r : FileRequest}

/-- On data requests the check is one condition. -/
theorem silent_iff (data : isData prevReq = true) (next : isData r = true)
    (prevHere : prevReq.fileId < cfg.sizes.numFiles) (here : r.fileId < cfg.sizes.numFiles) :
    Silent cfg prevReq r ↔
      (r.fileId = prevReq.fileId ∧ r.pos = prevReq.pos + prevReq.size) ∨
        (r.fileId ≠ prevReq.fileId ∧ prevReq.pos + prevReq.size = cfg.fileSize ∧ r.pos = 0 ∧
          r.fileId = (prevReq.fileId + 1) % cfg.sizes.numFiles) := by
  have files := cfg.sizes.filesUnsigned
  have noFsync : ¬ (r.operation = .fsync ∨ r.operation = .null) := by
    intro other
    rcases other with fsync | none_
    · simp [isData, fsync] at next
    · simp [isData, none_] at next
  have some_ : prevReq.operation ≠ .null := by
    intro none_
    simp [isData, none_] at data
  rw [Silent, checkSeqReq, if_neg noFsync, if_neg some_]
  by_cases same : r.fileId = prevReq.fileId
  · have close : ¬ (((r.fileId : Int) - prevReq.fileId) % 2 ^ 32 > 1 ∧
        ¬ (r.fileId = 0 ∧ prevReq.fileId = cfg.sizes.numFiles - 1)) := by
      rw [same]
      omega
    rw [if_neg close, if_pos same]
    simp only [ite_eq_right_iff, same, true_and, ne_eq, not_true_eq_false, false_and, or_false]
    constructor
    · intro silent
      by_contra apart
      exact absurd (silent (by omega)) (List.cons_ne_nil _ _)
    · intro adjacent apart
      omega
  · rw [if_neg same]
    -- an unsigned difference of at most 1, or the first file behind the last one
    have cyclic : ¬ (((r.fileId : Int) - prevReq.fileId) % 2 ^ 32 > 1 ∧
        ¬ (r.fileId = 0 ∧ prevReq.fileId = cfg.sizes.numFiles - 1)) ↔
          r.fileId = (prevReq.fileId + 1) % cfg.sizes.numFiles := by
      by_cases last : prevReq.fileId + 1 = cfg.sizes.numFiles
      · rw [last, Nat.mod_self]
        omega
      · rw [Nat.mod_eq_of_lt (by omega)]
        omega
    by_cases next : r.fileId = (prevReq.fileId + 1) % cfg.sizes.numFiles
    · rw [if_neg (cyclic.mpr next)]
      simp only [ite_eq_right_iff, same, false_and, false_or, not_false_eq_true, true_and, ne_eq,
        ← next, and_true, reduceCtorEq, imp_false, not_or, not_not]
    · rw [if_pos (not_not.mp (mt cyclic.mp next))]
      simp [same, next]

/-- A request that raises no warning follows the one before it. -/
theorem silent_follows (data : isData prevReq = true) (next : isData r = true)
    (prevHere : prevReq.fileId < cfg.sizes.numFiles) (here : r.fileId < cfg.sizes.numFiles)
    (silent : Silent cfg prevReq r) : Follows cfg prevReq r := by
  rcases (silent_iff data next prevHere here).mp silent with adjacent | ⟨_, switched⟩
  · exact Or.inl adjacent
  · exact Or.inr switched
end Checker

/-! The generator, behind a request it gave. -/
section Generated
variable {cfg : FileConfig} {st : GeneratorState} {last : FileRequest}

/-- The next place is behind the last request, in its file or at the start of the next. -/
def Expected (cfg : FileConfig) (last : FileRequest) (next : Nat × Int) : Prop :=
  (last.pos + last.size < cfg.fileSize ∧ next = (last.fileId, last.pos + last.size)) ∨
    (last.pos + last.size = cfg.fileSize ∧ next = ((last.fileId + 1) % cfg.sizes.numFiles, 0))

structure Behind (cfg : FileConfig) (st : GeneratorState) (last : FileRequest) : Prop where
  file : (place cfg st).1 < cfg.sizes.numFiles
  nonneg : 0 ≤ (place cfg st).2
  inside : (place cfg st).2 < cfg.fileSize
  expected : last = nullRequest ∨
    isData last = true ∧ last.fileId < cfg.sizes.numFiles ∧ 0 < last.size ∧
      Expected cfg last (place cfg st)

theorem start_behind (someBytes : 1 ≤ cfg.fileSize) (perThread : Nat → Nat × Int) :
    Behind cfg (initVars perThread) nullRequest := by
  have first : place cfg (initVars perThread) = (0, 0) := if_neg cfg.sizes.someFiles.ne
  constructor
  case file =>
    rw [first]
    exact cfg.sizes.someFiles
  case nonneg => rw [first]
  case inside =>
    rw [first]
    change (0 : Int) < cfg.fileSize
    exact_mod_cast someBytes
  case expected => exact Or.inl rfl

theorem fsync_behind (behind : Behind cfg st last)
    (fsync : isData (fileGetSeqRequest cfg st).1 = false) :
    Behind cfg (fileGetSeqRequest cfg st).2 last := by
  by_cases due : FsyncDue cfg st
  · have same : place cfg (fileGetSeqRequest cfg st).2 = place cfg st := by
      rw [seq_fsync due, place, place, fsync_request_place.1, fsync_request_place.2]
    obtain ⟨file, nonneg, inside, expected⟩ := behind
    rw [← same] at file nonneg inside expected
    exact ⟨file, nonneg, inside, expected⟩
  · rw [(seq_data due).1, seq_operation_data] at fsync
    cases fsync

/-- Where the walk goes on behind the request at a place. -/
theorem next_place (file : Nat) (position : Int) (within : file < cfg.sizes.numFiles)
    (before : position + min cfg.requestSize (cfg.fileSize - position) ≤ cfg.fileSize)
    (moved : (st.currentFile, st.position) = afterRequest cfg file position) :
    Expected cfg (requestAt cfg file position) (place cfg st) := by
  have files := cfg.sizes.filesUnsigned
  have size : (requestAt cfg file position).size = min cfg.requestSize (cfg.fileSize - position) :=
    rfl
  have start : (requestAt cfg file position).pos = position := rfl
  simp only [afterRequest] at moved
  split at moved
  · rename_i full
    right
    rw [Nat.mod_eq_of_lt (by omega)] at moved
    obtain ⟨current, position_⟩ := Prod.mk.inj moved
    refine ⟨full, ?_⟩
    change place cfg st = ((file + 1) % cfg.sizes.numFiles, 0)
    by_cases behindAll : file + 1 = cfg.sizes.numFiles
    · rw [place, if_pos (current.trans behindAll), behindAll, Nat.mod_self]
    · rw [place, current, position_, if_neg behindAll, Nat.mod_eq_of_lt (by omega)]
  · rename_i more
    left
    obtain ⟨current, position_⟩ := Prod.mk.inj moved
    refine ⟨by omega, ?_⟩
    rw [place, current, position_, if_neg within.ne]
    rfl

theorem data_behind (someBytes : 1 ≤ cfg.fileSize) (someSize : 1 ≤ cfg.requestSize)
    (behind : Behind cfg st last) (data : isData (fileGetSeqRequest cfg st).1 = true) :
    Behind cfg (fileGetSeqRequest cfg st).2 (fileGetSeqRequest cfg st).1 := by
  have notDue : ¬ FsyncDue cfg st := by
    intro due
    simp [seq_fsync due, isData, fsync_request_operation] at data
  obtain ⟨request, moved, _⟩ := seq_data notDue
  obtain ⟨file, nonneg, inside, _⟩ := behind
  have next := next_place _ _ file (by omega) moved
  rw [request] at data ⊢
  generalize place cfg st = here at *
  have size : (requestAt cfg here.1 here.2).size = min cfg.requestSize (cfg.fileSize - here.2) :=
    rfl
  have start : (requestAt cfg here.1 here.2).pos = here.2 := rfl
  have some_ : 0 < (requestAt cfg here.1 here.2).size := by omega
  have expected := Or.inr (a := requestAt cfg here.1 here.2 = nullRequest)
    (show _ ∧ _ ∧ _ ∧ _ from ⟨data, file, some_, next⟩)
  rcases next with ⟨more, here_⟩ | ⟨_, here_⟩
  · refine ⟨?_, ?_, ?_, expected⟩
    · rw [here_]
      exact file
    · rw [here_]
      omega
    · rw [here_]
      exact more
  · refine ⟨?_, ?_, ?_, expected⟩
    · rw [here_]
      exact Nat.mod_lt _ cfg.sizes.someFiles
    · rw [here_]
    · rw [here_]
      change (0 : Int) < cfg.fileSize
      exact_mod_cast someBytes

/-- With a second file the checker accepts what the generator gives. -/
theorem generated_silent (twoFiles : 2 ≤ cfg.sizes.numFiles) (behind : Behind cfg st last)
    (data : isData (fileGetSeqRequest cfg st).1 = true) :
    Silent cfg last (fileGetSeqRequest cfg st).1 := by
  have notDue : ¬ FsyncDue cfg st := by
    intro due
    simp [seq_fsync due, isData, fsync_request_operation] at data
  rw [(seq_data notDue).1] at data ⊢
  rcases behind.expected with rfl | ⟨before, lastHere, _, expected⟩
  · simp [Silent, checkSeqReq, nullRequest]
  · rw [silent_iff before data lastHere behind.file]
    rcases expected with ⟨_, next⟩ | ⟨full, next⟩
    · left
      exact ⟨congrArg Prod.fst next, congrArg Prod.snd next⟩
    · right
      have file : (place cfg st).1 = (last.fileId + 1) % cfg.sizes.numFiles := congrArg Prod.fst next
      refine ⟨?_, full, congrArg Prod.snd next, file⟩
      change (place cfg st).1 ≠ last.fileId
      rw [file]
      by_cases end_ : last.fileId + 1 = cfg.sizes.numFiles
      · rw [end_, Nat.mod_self]
        omega
      · rw [Nat.mod_eq_of_lt (by omega)]
        omega
end Generated

/-! Checker and generator. -/
section Agreement
variable {cfg : FileConfig}

/-- The checker takes the generator's walk, and nothing but what follows. -/
structure Agrees (cfg : FileConfig) (perThread : Nat → Nat × Int) : Prop where
  accepts : ∀ calls, List.IsChain (Silent cfg) (dataRequests cfg calls (initVars perThread))
  refuses : ∀ prevReq r, isData prevReq = true → isData r = true →
    InsideFile cfg prevReq → InsideFile cfg r → Silent cfg prevReq r → Follows cfg prevReq r

theorem walk_silent (someBytes : 1 ≤ cfg.fileSize) (someSize : 1 ≤ cfg.requestSize)
    (twoFiles : 2 ≤ cfg.sizes.numFiles) (perThread : Nat → Nat × Int) (calls : Nat) :
    List.IsChain (Silent cfg) (nullRequest :: dataRequests cfg calls (initVars perThread)) :=
  walk_chain isData (Silent cfg) (Behind cfg) (fun _ _ => fsync_behind)
    (fun _ _ behind data =>
      ⟨generated_silent twoFiles behind data, data_behind someBytes someSize behind data⟩)
    calls (initVars perThread) nullRequest (start_behind someBytes perThread)

def checkedRun (cfg : FileConfig) : Nat → Checked → Checked
  | 0, s => s
  | calls + 1, s => checkedRun cfg calls (checkedRequest cfg s).2

/-- No warning yet, and `prev_req` is the request the generator stands behind. -/
structure Quiet (cfg : FileConfig) (s : Checked) : Prop where
  warnings : s.warnings = []
  behind : Behind cfg s.generator s.prevReq

theorem checked_request_quiet (someBytes : 1 ≤ cfg.fileSize) (someSize : 1 ≤ cfg.requestSize)
    (twoFiles : 2 ≤ cfg.sizes.numFiles) (validated : cfg.validate = true) (s : Checked)
    (quiet : Quiet cfg s) : Quiet cfg (checkedRequest cfg s).2 := by
  cases kind : isData (fileGetSeqRequest cfg s.generator).1 with
  | false =>
      simp only [checkedRequest, kind, Bool.and_false, Bool.false_eq_true, ↓reduceIte]
      exact ⟨quiet.warnings, fsync_behind quiet.behind kind⟩
  | true =>
      simp only [checkedRequest, kind, validated, Bool.and_self, ↓reduceIte]
      have silent : Silent cfg s.prevReq _ := generated_silent twoFiles quiet.behind kind
      refine ⟨?_, data_behind someBytes someSize quiet.behind kind⟩
      rw [quiet.warnings, List.nil_append]
      exact silent

/-- A validated run over two files or more logs no warning. -/
theorem checked_run_quiet (someBytes : 1 ≤ cfg.fileSize) (someSize : 1 ≤ cfg.requestSize)
    (twoFiles : 2 ≤ cfg.sizes.numFiles) (validated : cfg.validate = true)
    (perThread : Nat → Nat × Int) (calls : Nat) :
    (checkedRun cfg calls ⟨initVars perThread, nullRequest, []⟩).warnings = [] := by
  have start : Quiet cfg ⟨initVars perThread, nullRequest, []⟩ :=
    ⟨rfl, start_behind someBytes perThread⟩
  generalize (⟨initVars perThread, nullRequest, []⟩ : Checked) = s at start
  induction calls generalizing s with
  | zero => exact start.warnings
  | succ calls ih =>
      exact ih _ (checked_request_quiet someBytes someSize twoFiles validated s start)

theorem pass_starts {tiles : List (Int × Int)}
    (tiled : Tiles cfg.requestSize cfg.fileSize 0 tiles) :
    ∃ first rest, passFrom cfg tiles 0 = first :: rest ∧ first.pos = 0 := by
  rw [pass_from_next 0 cfg.sizes.someFiles]
  cases tiled with
  | last start some_ fits => exact ⟨_, _, rfl, rfl⟩
  | next start rest more tiled => exact ⟨_, _, rfl, rfl⟩

/-- The second pass over a single file starts with a warning. -/
theorem one_file_warned (someBytes : 1 ≤ cfg.fileSize) (someSize : 1 ≤ cfg.requestSize)
    (single : cfg.sizes.numFiles = 1) (perThread : Nat → Nat × Int) :
    ∃ calls, ¬ List.IsChain (Silent cfg) (dataRequests cfg calls (initVars perThread)) := by
  obtain ⟨tiles, tiled⟩ : ∃ tiles, Tiles cfg.requestSize cfg.fileSize 0 tiles :=
    tiles_exist (by omega) 0 (by exact_mod_cast someBytes)
  have inside := (pass_of_tiles someSize tiled).inside
  obtain ⟨first, rest, pass, zero⟩ := pass_starts tiled
  obtain ⟨calls, count⟩ := @data_requests_go_on cfg perThread (rest.length + 2)
  have cyclic := data_requests_cyclic tiled perThread calls
  rw [← pass_from_zero] at inside
  rw [pass] at inside cyclic
  refine ⟨calls, fun chain => ?_⟩
  have data : ∀ request ∈ dataRequests cfg calls (initVars perThread), isData request = true :=
    fun request member => (List.mem_filter.mp member).2
  generalize dataRequests cfg calls (initVars perThread) = given at *
  have past : rest.length + 1 < given.length := by omega
  have before : rest.length < given.length := by omega
  have silent : Silent cfg given[rest.length] given[rest.length + 1] :=
    List.isChain_iff_getElem.mp chain rest.length past
  have here := cyclic rest.length _ (List.getElem?_eq_getElem before)
  have again := cyclic (rest.length + 1) _ (List.getElem?_eq_getElem past)
  rw [List.length_cons, Nat.mod_self] at again
  have same : given[rest.length + 1] = first := (Option.some.inj again).symm
  have lastInside := inside _ (List.mem_of_getElem? here)
  have firstInside := inside first List.mem_cons_self
  rw [same, silent_iff (data _ (List.getElem_mem before)) (same ▸ data _ (List.getElem_mem past))
    lastInside.1 firstInside.1] at silent
  obtain ⟨lastFile, nonneg, some_, _⟩ := lastInside
  have firstFile := firstInside.1
  rcases silent with ⟨_, adjacent⟩ | ⟨apart, _⟩
  · omega
  · omega

theorem checker_agrees_iff (cfg : FileConfig) (someBytes : 1 ≤ cfg.fileSize)
    (someSize : 1 ≤ cfg.requestSize) (perThread : Nat → Nat × Int) :
    Agrees cfg perThread ↔ 2 ≤ cfg.sizes.numFiles := by
  constructor
  · intro agrees
    by_contra few
    have single : cfg.sizes.numFiles = 1 := by
      have some_ := cfg.sizes.someFiles
      omega
    obtain ⟨calls, warned⟩ := one_file_warned someBytes someSize single perThread
    exact warned (agrees.accepts calls)
  · intro twoFiles
    constructor
    · intro calls
      exact (walk_silent someBytes someSize twoFiles perThread calls).tail
    · intro prevReq r data next before here silent
      exact silent_follows data next before.1 here.1 silent

theorem one_file_unsigned : 1 < 2 ^ 32 := by decide
theorem two_files_unsigned : 2 < 2 ^ 32 := by decide
theorem three_bytes_signed : 3 < 2 ^ 63 := by decide
theorem six_bytes_signed : 6 < 2 ^ 63 := by decide
theorem one_byte_int : 1 < 2 ^ 31 := by decide

/-- Two files of three bytes, written two bytes at a time. -/
def twoFiles : FileConfig :=
  { twoAtATime with
    sizes := ⟨2, 6, 1, Nat.succ_pos 1, two_files_unsigned, Nat.succ_pos 5, six_bytes_signed,
      Nat.succ_pos 0, one_byte_int⟩ }

theorem checker_agrees_two_files :
    (1 ≤ twoFiles.fileSize ∧ 1 ≤ twoFiles.requestSize) ∧
      (Agrees twoFiles (fun _ => (0, 0)) ↔ 2 ≤ twoFiles.sizes.numFiles) :=
  ⟨by decide, checker_agrees_iff twoFiles (by decide) (by decide) fun _ => (0, 0)⟩

/-- `--file-num=1` with three bytes: the third request starts at 0 again. -/
def oneFile : FileConfig :=
  { twoAtATime with
    sizes := ⟨1, 3, 1, Nat.succ_pos 0, one_file_unsigned, Nat.succ_pos 2, three_bytes_signed,
      Nat.succ_pos 0, one_byte_int⟩ }

/-- What the generator gives, the checker warns of. -/
theorem single_file_warned :
    ((dataRequests oneFile 3 (initVars fun _ => (0, 0))).map fun request =>
        (request.fileId, request.pos, request.size)) = [(0, 0, 2), (0, 2, 1), (0, 0, 2)] ∧
      checkSeqReq oneFile ⟨.write, 0, 2, 1⟩ ⟨.write, 0, 0, 2⟩ =
        ["Discovered too large position difference in seq request!"] ∧
      ¬ Agrees oneFile fun _ => (0, 0) := by
  refine ⟨by decide, by decide, fun agrees => ?_⟩
  exact absurd (agrees.accepts 3) (by decide)
end Agreement
end PteSysbench.SequentialChecker
