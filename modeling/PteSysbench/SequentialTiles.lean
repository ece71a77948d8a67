import PteSysbench.FileRequests
import PteSysbench.Tiling
import Mathlib.Data.List.Range

/-!
The walk of `file_get_seq_request` through the files. It is atomic under the mutex and
does not look at its caller, so a run of any workers is a sequence of calls.
-/

namespace PteSysbench.SequentialTiles

open FileRequests Tiling

def isData (request : FileRequest) : Bool :=
  decide (request.operation = .read ∨ request.operation = .write)

/-- All requests of the first calls, and the READ and WRITE requests among them. -/
def seqRequests (cfg : FileConfig) (calls : Nat) (st : GeneratorState) : List FileRequest :=
  outputs (fileGetSeqRequest cfg) calls st

def dataRequests (cfg : FileConfig) (calls : Nat) (st : GeneratorState) : List FileRequest :=
  (seqRequests cfg calls st).filter isData

/-- The operation of a sequential mode. -/
def seqOperation (cfg : FileConfig) : FileOp :=
  if cfg.testMode = .write ∨ cfg.testMode = .rewrite then .write else .read

def fileRequests (cfg : FileConfig) (tiles : List (Int × Int)) (file : Nat) : List FileRequest :=
  tiles.map fun tile =>
    { operation := seqOperation cfg, fileId := file, pos := tile.1, size := tile.2 }

/-- The files in order, each cut in the same way from 0 to its end. -/
def TilesFiles (cfg : FileConfig) (pass : List FileRequest) : Prop :=
  ∃ tiles, Tiles cfg.requestSize cfg.fileSize 0 tiles ∧
    pass = (List.range cfg.sizes.numFiles).flatMap (fileRequests cfg tiles)

def coversByte (file : Nat) (byte : Int) (request : FileRequest) : Bool :=
  decide (request.fileId = file) && covers byte (request.pos, request.size)

structure FilePass (cfg : FileConfig) (pass : List FileRequest) : Prop where
  tiles : TilesFiles cfg pass
  inside : ∀ request ∈ pass, InsideFile cfg request
  once : ∀ file, file < cfg.sizes.numFiles → ∀ byte : Int, 0 ≤ byte → byte < cfg.fileSize →
    pass.countP (coversByte file byte) = 1

/-! One pass covers every byte once. -/
section Pass
variable {cfg : FileConfig} {tiles : List (Int × Int)}

theorem file_count (file other : Nat) (byte : Int) :
    (fileRequests cfg tiles other).countP (coversByte file byte) =
      if other = file then tiles.countP (covers byte) else 0 := by
  rw [fileRequests, List.countP_map]
  by_cases same : other = file
  · rw [if_pos same]
    congr 1
    funext tile
    simp [coversByte, same]
  · rw [if_neg same, List.countP_eq_zero]
    simp [coversByte, same]

theorem files_count (files file : Nat) (byte : Int) :
    ((List.range files).flatMap (fileRequests cfg tiles)).countP (coversByte file byte) =
      if file < files then tiles.countP (covers byte) else 0 := by
  induction files with
  | zero => simp
  | succ files ih =>
      rw [List.range_succ, List.flatMap_append, List.countP_append, ih, List.flatMap_singleton,
        file_count]
      by_cases same : files = file
      · subst same
        simp
      · by_cases before : file < files
        · simp [before, same, Nat.lt_succ_of_lt before]
        · have past : ¬ file < files + 1 := by omega
          simp [before, same, past]

theorem pass_of_tiles (someSize : 0 < cfg.requestSize)
    (tiled : Tiles cfg.requestSize cfg.fileSize 0 tiles) :
    FilePass cfg ((List.range cfg.sizes.numFiles).flatMap (fileRequests cfg tiles)) := by
  constructor
  case tiles => exact ⟨tiles, tiled, rfl⟩
  case inside =>
    intro request member
    obtain ⟨file, listed, member⟩ := List.mem_flatMap.mp member
    obtain ⟨tile, cut, rfl⟩ := List.mem_map.mp member
    obtain ⟨after, some_, fits⟩ := tiles_inside someSize tiled tile cut
    exact ⟨List.mem_range.mp listed, after, some_, fits⟩
  case once =>
    intro file here byte after before
    rw [files_count, if_pos here]
    exact tiles_cover_once someSize tiled byte after before

end Pass

/-! What every call does to the walk. -/
section Calls
variable {cfg : FileConfig} {tiles : List (Int × Int)} {st : GeneratorState}

def passFrom (cfg : FileConfig) (tiles : List (Int × Int)) (file : Nat) : List FileRequest :=
  (List.range' file (cfg.sizes.numFiles - file)).flatMap (fileRequests cfg tiles)

theorem pass_from_zero : passFrom cfg tiles 0 =
    (List.range cfg.sizes.numFiles).flatMap (fileRequests cfg tiles) := by
  rw [passFrom, Nat.sub_zero, List.range_eq_range']

theorem pass_from_next (file : Nat) (here : file < cfg.sizes.numFiles) :
    passFrom cfg tiles file = fileRequests cfg tiles file ++ passFrom cfg tiles (file + 1) := by
  have some_ : cfg.sizes.numFiles - file = cfg.sizes.numFiles - (file + 1) + 1 := by omega
  rw [passFrom, some_, List.range'_succ, List.flatMap_cons, passFrom]

/-- Where the next request is, after the rewind. -/
def place (cfg : FileConfig) (st : GeneratorState) : Nat × Int :=
  if st.currentFile = cfg.sizes.numFiles then (0, 0) else (st.currentFile, st.position)

/-- What is still to come of the pass. -/
def Left (cfg : FileConfig) (tiles : List (Int × Int)) (st : GeneratorState)
    (left : List FileRequest) : Prop :=
  (place cfg st).1 < cfg.sizes.numFiles ∧
    ∃ rest, Tiles cfg.requestSize cfg.fileSize (place cfg st).2 rest ∧
      left = fileRequests cfg rest (place cfg st).1 ++ passFrom cfg tiles ((place cfg st).1 + 1)

def FsyncDue (cfg : FileConfig) (st : GeneratorState) : Prop :=
  cfg.fsyncFreq ≠ 0 ∧ seqOperation cfg = .write ∧ st.isDirty ∧ st.reqPerformed % cfg.fsyncFreq = 0

instance (cfg : FileConfig) (st : GeneratorState) : Decidable (FsyncDue cfg st) :=
  inferInstanceAs (Decidable (_ ∧ _))

theorem seq_fsync (due : FsyncDue cfg st) : fileGetSeqRequest cfg st = fsyncRequest cfg st := by
  exact if_pos due

/-- The data request at a place. -/
def requestAt (cfg : FileConfig) (file : Nat) (position : Int) : FileRequest :=
  { operation := seqOperation cfg, fileId := file, pos := position
    size := min cfg.requestSize (cfg.fileSize - position) }

/-- Where the walk stands behind that request. -/
def afterRequest (cfg : FileConfig) (file : Nat) (position : Int) : Nat × Int :=
  let next := position + (requestAt cfg file position).size
  if next = cfg.fileSize then ((file + 1) % 2 ^ 32, 0) else (file, next)

theorem seq_data (notDue : ¬ FsyncDue cfg st) :
    (fileGetSeqRequest cfg st).1 = requestAt cfg (place cfg st).1 (place cfg st).2 ∧
      ((fileGetSeqRequest cfg st).2.currentFile, (fileGetSeqRequest cfg st).2.position) =
        afterRequest cfg (place cfg st).1 (place cfg st).2 ∧
      (fileGetSeqRequest cfg st).2.fsyncedFile = st.fsyncedFile := by
  unfold FsyncDue seqOperation at notDue
  by_cases rewound : st.currentFile = cfg.sizes.numFiles
  · simp only [fileGetSeqRequest, if_neg notDue, rewound, decide_true, ↓reduceIte, place,
      requestAt, afterRequest, seqOperation]
    refine ⟨trivial, ?_, trivial⟩
    split <;> rfl
  · simp only [fileGetSeqRequest, if_neg notDue, rewound, decide_false, Bool.false_eq_true,
      ↓reduceIte, place, requestAt, afterRequest, seqOperation]
    refine ⟨trivial, ?_, trivial⟩
    split <;> rfl

theorem fsync_request_place :
    (fsyncRequest cfg st).2.currentFile = st.currentFile ∧
      (fsyncRequest cfg st).2.position = st.position := by
  simp only [fsyncRequest]
  split <;> exact ⟨rfl, rfl⟩

theorem seq_operation_data (file : Nat) (position : Int) :
    isData (requestAt cfg file position) = true := by
  simp only [isData, requestAt, seqOperation]
  split <;> rfl

theorem fsync_left (left : List FileRequest) (here : Left cfg tiles st left)
    (fsync : isData (fileGetSeqRequest cfg st).1 = false) :
    Left cfg tiles (fileGetSeqRequest cfg st).2 left := by
  by_cases due : FsyncDue cfg st
  · have same : place cfg (fileGetSeqRequest cfg st).2 = place cfg st := by
      rw [seq_fsync due, place, place, fsync_request_place.1, fsync_request_place.2]
    rwa [Left, same]
  · rw [(seq_data due).1, seq_operation_data] at fsync
    cases fsync

theorem left_at (file : Nat) (position : Int) (rest : List (Int × Int))
    (placed : place cfg st = (file, position)) (within : file < cfg.sizes.numFiles)
    (cut : Tiles cfg.requestSize cfg.fileSize position rest) :
    Left cfg tiles st (fileRequests cfg rest file ++ passFrom cfg tiles (file + 1)) := by
  rw [Left, placed]
  exact ⟨within, rest, cut, rfl⟩

theorem file_requests_nonempty {start : Int} {rest : List (Int × Int)} (file : Nat)
    (cut : Tiles cfg.requestSize cfg.fileSize start rest) (more : List FileRequest) :
    fileRequests cfg rest file ++ more ≠ [] := by
  simp [fileRequests, tiles_nonempty cut]

/-- Behind the last file the next place is the first. -/
theorem file_left (tiled : Tiles cfg.requestSize cfg.fileSize 0 tiles) (file : Nat)
    (within : file < cfg.sizes.numFiles)
    (moved : (st.currentFile, st.position) = ((file + 1) % 2 ^ 32, (0 : Int))) :
    Left cfg tiles st (if passFrom cfg tiles (file + 1) = [] then passFrom cfg tiles 0
      else passFrom cfg tiles (file + 1)) := by
  have files := cfg.sizes.filesUnsigned
  rw [Nat.mod_eq_of_lt (by omega)] at moved
  obtain ⟨current, position⟩ := Prod.mk.inj moved
  by_cases last : file + 1 = cfg.sizes.numFiles
  · have none_ : passFrom cfg tiles (file + 1) = [] := by simp [passFrom, last]
    rw [if_pos none_, pass_from_next 0 cfg.sizes.someFiles]
    apply left_at 0 0 tiles _ cfg.sizes.someFiles tiled
    rw [place, if_pos (current.trans last)]
  · have more : file + 1 < cfg.sizes.numFiles := by omega
    rw [pass_from_next (file + 1) more, if_neg (file_requests_nonempty _ tiled _)]
    apply left_at (file + 1) 0 tiles _ more tiled
    rw [place, current, position, if_neg last]

/-- The next request of the pass, and the pass again behind its last. -/
theorem data_left (tiled : Tiles cfg.requestSize cfg.fileSize 0 tiles)
    (left : List FileRequest) (here : Left cfg tiles st left)
    (data : isData (fileGetSeqRequest cfg st).1 = true) :
    ∃ later, left = (fileGetSeqRequest cfg st).1 :: later ∧
      Left cfg tiles (fileGetSeqRequest cfg st).2
        (if later = [] then passFrom cfg tiles 0 else later) := by
  have notDue : ¬ FsyncDue cfg st := by
    intro due
    simp [seq_fsync due, isData, fsync_request_operation] at data
  obtain ⟨request, moved, _⟩ := seq_data notDue
  obtain ⟨within, rest, cut, rfl⟩ := here
  rw [request]
  generalize place cfg st = here at *
  obtain ⟨file, position⟩ := here
  simp only at moved within cut ⊢
  cases cut with
  | last start some_ fits =>
      -- the last request of a file ends with it, and the next file follows
      have size : min cfg.requestSize (cfg.fileSize - position) = cfg.fileSize - position := by
        omega
      refine ⟨passFrom cfg tiles (file + 1), ?_, ?_⟩
      · simp [fileRequests, requestAt, size]
      · apply file_left tiled file within
        simpa [afterRequest, requestAt, size] using moved
  | next start rest more cut =>
      have size : min cfg.requestSize (cfg.fileSize - position) = cfg.requestSize := by omega
      refine ⟨fileRequests cfg rest file ++ passFrom cfg tiles (file + 1), ?_, ?_⟩
      · simp [fileRequests, requestAt, size]
      · rw [if_neg (file_requests_nonempty file cut _)]
        apply left_at file (position + cfg.requestSize) rest _ within cut
        simp [afterRequest, requestAt, size, more.ne] at moved
        simp [place, moved, within.ne]

end Calls

/-! All calls. -/
section Walk
variable {cfg : FileConfig}

/-- The fsync requests of a round come to an end, whatever is asked in between. -/
def roundLeft (cfg : FileConfig) (st : GeneratorState) : Nat :=
  if st.isDirty then cfg.sizes.numFiles - st.fsyncedFile else 0

theorem fsync_falls (st : GeneratorState) (within : st.fsyncedFile < cfg.sizes.numFiles)
    (fsync : isData (fileGetSeqRequest cfg st).1 = false) :
    roundLeft cfg (fileGetSeqRequest cfg st).2 < roundLeft cfg st := by
  by_cases due : FsyncDue cfg st
  · have files := cfg.sizes.filesUnsigned
    rw [seq_fsync due, roundLeft, roundLeft, if_pos due.2.2.1]
    simp only [fsyncRequest, Nat.mod_eq_of_lt (show st.fsyncedFile + 1 < 2 ^ 32 by omega)]
    split
    · simp only [Bool.false_eq_true, ↓reduceIte]
      omega
    · simp only [due.2.2.1, ↓reduceIte]
      omega
  · rw [(seq_data due).1, seq_operation_data] at fsync
    cases fsync

theorem fsynced_kept (st : GeneratorState) (within : st.fsyncedFile < cfg.sizes.numFiles) :
    (fileGetSeqRequest cfg st).2.fsyncedFile < cfg.sizes.numFiles := by
  by_cases due : FsyncDue cfg st
  · have files := cfg.sizes.filesUnsigned
    rw [seq_fsync due]
    simp only [fsyncRequest, Nat.mod_eq_of_lt (show st.fsyncedFile + 1 < 2 ^ 32 by omega)]
    split
    · exact cfg.sizes.someFiles
    · simp only
      omega
  · rwa [(seq_data due).2.2]

theorem data_requests_cyclic {tiles : List (Int × Int)}
    (tiled : Tiles cfg.requestSize cfg.fileSize 0 tiles) (perThread : Nat → Nat × Int)
    (calls i : Nat) (request : FileRequest)
    (given : (dataRequests cfg calls (initVars perThread))[i]? = some request) :
    (passFrom cfg tiles 0)[i % (passFrom cfg tiles 0).length]? = some request := by
  have start : Left cfg tiles (initVars perThread) (passFrom cfg tiles 0) := by
    rw [pass_from_next 0 cfg.sizes.someFiles]
    apply left_at 0 0 tiles _ cfg.sizes.someFiles tiled
    exact if_neg cfg.sizes.someFiles.ne
  rw [← Nat.zero_add i]
  apply walk_cyclic isData _ (Left cfg tiles) (fun _ => fsync_left) (fun _ => data_left tiled)
    calls (initVars perThread) 0 _ i request given
  rwa [Nat.zero_mod, List.drop_zero]

theorem data_requests_go_on (perThread : Nat → Nat × Int) (count : Nat) :
    ∃ calls, (dataRequests cfg calls (initVars perThread)).length = count :=
  walk_goes_on isData (fun st => st.fsyncedFile < cfg.sizes.numFiles) (roundLeft cfg)
    fsynced_kept fsync_falls (initVars perThread) cfg.sizes.someFiles count

theorem sequential_requests_tile (cfg : FileConfig) (someBytes : 1 ≤ cfg.fileSize)
    (someSize : 1 ≤ cfg.requestSize) (perThread : Nat → Nat × Int) :
    ∃ pass, FilePass cfg pass ∧
      (∀ calls i request, (dataRequests cfg calls (initVars perThread))[i]? = some request →
        pass[i % pass.length]? = some request) ∧
      ∀ count, ∃ calls, (dataRequests cfg calls (initVars perThread)).length = count := by
  have cut : ∃ tiles, Tiles cfg.requestSize cfg.fileSize 0 tiles :=
    tiles_exist (by omega) 0 (by exact_mod_cast someBytes)
  obtain ⟨tiles, tiled⟩ := cut
  refine ⟨_, pass_of_tiles someSize tiled, fun calls i request given => ?_,
    data_requests_go_on perThread⟩
  rw [← pass_from_zero]
  exact data_requests_cyclic tiled perThread calls i request given

/-- Three files of three bytes, written two bytes at a time. -/
def twoAtATime : FileConfig := { tailConfig with testMode := .write, requestSize := 2 }

theorem sequential_requests_tile_two_at_a_time :
    ∃ pass, FilePass twoAtATime pass ∧
      (∀ calls i request,
        (dataRequests twoAtATime calls (initVars fun _ => (0, 0)))[i]? = some request →
          pass[i % pass.length]? = some request) ∧
      ∀ count, ∃ calls,
        (dataRequests twoAtATime calls (initVars fun _ => (0, 0))).length = count :=
  sequential_requests_tile twoAtATime (by decide) (by decide) fun _ => (0, 0)

end Walk
end PteSysbench.SequentialTiles
