import PteSysbench.FileValidation
import PteSysbench.RandomBlocks
import PteSysbench.SequentialTiles

/-!
The bytes that `file_fill_buffer` and `file_validate_buffer` touch in a buffer of `len`
bytes, and the lengths they are called with. The trailer is subtracted from the length
without a check, and the last piece of a file can be shorter than the trailer.
-/

namespace PteSysbench.BufferBounds

open ActionSystem FileRequests RandomBlocks SbRand SequentialTiles Tiling
open FileValidation (Checksum fileFillBuffer trailerLength)

/-! Indices. -/
section Accesses

/-- The type of `len - (FILE_CHECKSUM_LENGTH + FILE_OFFSET_LENGTH)`: `size_t` of 64 bits,
which `cs_offset` cuts to `unsigned int`. The indices are no better in 32 bits. -/
inductive Width where
  | bits32
  | bits64

def Width.values : Width → Nat
  | .bits32 => 2 ^ 32
  | .bits64 => 2 ^ 64

def contentLength (width : Width) (len : Nat) : Nat :=
  (len + width.values - trailerLength) % width.values

/-- So many turns of `for (i = 0; i < bound; i++) buf[i] = ...` from `i` on, with
`unsigned int i`: the indices written, and `i` behind the loop. -/
def fillLoop (bound : Nat) : Nat → Nat → List Nat × Option Nat
  | 0, _ => ([], none)
  | turns + 1, i =>
      if i < bound then
        let rest := fillLoop bound turns ((i + 1) % 2 ^ 32)
        (i :: rest.1, rest.2)
      else ([], some i)

/-- `file_fill_buffer` up to so many turns: the content, its CRC, the checksum and the offset. -/
def fillAccesses (width : Width) (len turns : Nat) : List Nat :=
  let bound := contentLength width len
  match fillLoop bound turns 0 with
  | (written, none) => written
  | (written, some i) =>
      written ++ List.range (bound % 2 ^ 32) ++ List.range' i 4 ++ List.range' (i + 4) 8

/-- `file_validate_buffer`; a wrong checksum is read again for the message. -/
def validateAccesses (width : Width) (len : Nat) (same : Bool) : List Nat :=
  let csOffset := contentLength width len % 2 ^ 32
  List.range csOffset ++ List.range' csOffset 4 ++
    if same then List.range' (csOffset + 4) 8 else List.range' csOffset 4

structure StaysInside (width : Width) (len : Nat) : Prop where
  fill : ∀ turns, ∀ i ∈ fillAccesses width len turns, i < len
  validate : ∀ same, ∀ i ∈ validateAccesses width len same, i < len

theorem content_length_long (width : Width) (len : Nat) (unsigned : len < 2 ^ 32)
    (long : trailerLength ≤ len) : contentLength width len = len - trailerLength := by
  cases width
  all_goals
    simp only [contentLength, Width.values, trailerLength] at *
    omega

theorem content_length_short (width : Width) (len : Nat) (short : len < trailerLength) :
    len < contentLength width len % 2 ^ 32 := by
  cases width
  all_goals
    simp only [contentLength, Width.values, trailerLength] at *
    omega

theorem fill_loop_stops (bound : Nat) (unsigned : bound < 2 ^ 32) (turns i : Nat)
    (below : i ≤ bound) :
    (∀ j ∈ (fillLoop bound turns i).1, j < bound) ∧
      ∀ last ∈ (fillLoop bound turns i).2, last = bound := by
  induction turns generalizing i with
  | zero => exact ⟨fun _ member => absurd member List.not_mem_nil, fun _ member => nomatch member⟩
  | succ turns ih =>
      rw [fillLoop]
      by_cases more : i < bound
      · rw [if_pos more, Nat.mod_eq_of_lt (by omega)]
        obtain ⟨inside, stopped⟩ := ih (i + 1) more
        exact ⟨List.forall_mem_cons.mpr ⟨more, inside⟩, stopped⟩
      · rw [if_neg more]
        refine ⟨fun _ member => absurd member List.not_mem_nil, fun last here => ?_⟩
        obtain rfl := Option.some.inj here
        omega

/-- Until it stops or wraps around, the loop writes one index after the other. -/
theorem fill_loop_writes (bound turns i : Nat) (within : i + turns ≤ bound)
    (unsigned : i + turns < 2 ^ 32) :
    fillLoop bound turns i = (List.range' i turns, none) := by
  induction turns generalizing i with
  | zero => rfl
  | succ turns ih =>
      rw [fillLoop, if_pos (by omega), Nat.mod_eq_of_lt (by omega),
        ih (i + 1) (by omega) (by omega)]
      rfl

theorem fill_inside_iff (width : Width) (len : Nat) (unsigned : len < 2 ^ 32) :
    (∀ turns, ∀ i ∈ fillAccesses width len turns, i < len) ↔ trailerLength ≤ len := by
  have trailer : trailerLength = 12 := rfl
  constructor
  · intro inside
    by_contra short
    have wrapped := content_length_short width len (Nat.not_le.mp short)
    have written := fill_loop_writes (contentLength width len) (len + 1) 0 (by omega) (by omega)
    have behind : len ∈ fillAccesses width len (len + 1) := by
      simp [fillAccesses, written]
    exact absurd (inside _ len behind) (Nat.lt_irrefl len)
  · intro long turns i member
    have content := content_length_long width len unsigned long
    obtain ⟨inside, stopped⟩ :=
      fill_loop_stops (len - trailerLength) (by omega) turns 0 (Nat.zero_le _)
    simp only [fillAccesses, content] at member
    split at member
    next written none_ =>
      rw [none_] at inside
      have := inside i member
      omega
    next written last some_ =>
      rw [some_] at inside stopped
      obtain rfl := stopped last rfl
      rw [Nat.mod_eq_of_lt (by omega)] at member
      simp only [List.mem_append, List.mem_range, List.mem_range'_1] at member
      rcases member with ((written | crc) | checksum) | offset
      · have := inside i written
        omega
      all_goals omega

theorem validate_inside_iff (width : Width) (len : Nat) (unsigned : len < 2 ^ 32) :
    (∀ same, ∀ i ∈ validateAccesses width len same, i < len) ↔ trailerLength ≤ len := by
  have trailer : trailerLength = 12 := rfl
  constructor
  · intro inside
    by_contra short
    have wrapped := content_length_short width len (Nat.not_le.mp short)
    have behind : len ∈ validateAccesses width len true :=
      List.mem_append_left _ (List.mem_append_left _ (List.mem_range.mpr wrapped))
    exact absurd (inside true len behind) (Nat.lt_irrefl len)
  · intro long same i member
    have content := content_length_long width len unsigned long
    simp only [validateAccesses, content] at member
    rw [Nat.mod_eq_of_lt (by omega)] at member
    cases same
    all_goals
      simp [List.mem_range'_1] at member
      omega

theorem stays_inside_iff (width : Width) (len : Nat) (unsigned : len < 2 ^ 32) :
    StaysInside width len ↔ trailerLength ≤ len := by
  rw [← fill_inside_iff width len unsigned]
  constructor
  · intro inside
    exact inside.fill
  · intro inside
    refine ⟨inside, ?_⟩
    rw [validate_inside_iff width len unsigned, ← fill_inside_iff width len unsigned]
    exact inside

/-- The blocks of `file_fill_buffer` that have an outcome are those it stays inside of. -/
theorem fill_outcome_iff (crc32 : Checksum) (random : Nat → UInt8) (width : Width)
    (len offset : Nat) (unsigned : len < 2 ^ 32) :
    (fileFillBuffer crc32 random len offset).isSome = true ↔ StaysInside width len := by
  rw [stays_inside_iff width len unsigned, fileFillBuffer]
  by_cases short : len < trailerLength
  · simp [short]
  · simpa [short] using Nat.not_lt.mp short

end Accesses

/-! Lengths. -/
section Lengths
variable (cfg : FileConfig)

def Sequential (cfg : FileConfig) : Prop :=
  cfg.testMode = .write ∨ cfg.testMode = .rewrite ∨ cfg.testMode = .read

/-- `file_req->size` as the parameter `unsigned int len`. -/
def lenOf (request : FileRequest) : Nat := (request.size % 2 ^ 32).toNat

/-- The lengths that the two functions are called with: for the blocks of `create_files`, and
for the READ and WRITE requests that `file_execute_event` does not refuse. -/
inductive Passed (cfg : FileConfig) : Nat → Prop where
  | created (some_ : 0 < cfg.fileSize) : Passed cfg cfg.sizes.blockSize
  | sequential (mode : Sequential cfg) (perThread : Nat → Nat × Int) (calls : Nat)
      (request : FileRequest) (given : request ∈ dataRequests cfg calls (initVars perThread))
      (taken : requestTarget cfg request = .ok request.fileId) : Passed cfg (lenOf request)
  | random (mode : ¬ Sequential cfg) (perThread : Nat → Nat × Int) (st after : GeneratorState)
      (reached : Reaches (step cfg) (initVars perThread) st) (call : Call) (request : FileRequest)
      (made : fileGetRndRequest cfg st call.tid call.reads call.writes (call.raws.map drawOf) =
        .request request after) (data : isData request = true)
      (taken : requestTarget cfg request = .ok request.fileId) : Passed cfg (lenOf request)

/-- No piece is shorter than the trailer. A negative request size is a huge length. -/
structure LongPieces (cfg : FileConfig) : Prop where
  blocks : 0 < cfg.fileSize → trailerLength ≤ cfg.sizes.blockSize
  sequential : Sequential cfg → cfg.requestSize < 0 ∨
    trailerLength ≤ min cfg.requestSize cfg.fileSize ∧
      (cfg.fileSize % cfg.requestSize = 0 ∨ trailerLength ≤ cfg.fileSize % cfg.requestSize)
  random : ¬ Sequential cfg → 0 < cfg.fileSize → ∀ k < 2 ^ 52,
    (blockAt cfg.sizes (blockStart cfg.sizes k)).1 ≤ cfg.sizes.numFiles →
      (blockAt cfg.sizes (blockStart cfg.sizes k)).2 + trailerLength ≤ cfg.fileSize

theorem len_of_lt (request : FileRequest) : lenOf request < 2 ^ 32 := by
  unfold lenOf
  omega

theorem len_of_small (request : FileRequest) (nonneg : 0 ≤ request.size)
    (small : request.size < 2 ^ 32) : (lenOf request : Int) = request.size := by
  unfold lenOf
  omega

theorem request_taken_iff (request : FileRequest) (nonneg : 0 ≤ request.pos + request.size)
    (inside : request.pos + request.size ≤ cfg.fileSize) :
    requestTarget cfg request = .ok request.fileId ↔ request.fileId ≤ cfg.sizes.numFiles := by
  have total := cfg.sizes.totalSigned
  have size : cfg.fileSize ≤ cfg.sizes.totalSize := Nat.div_le_self _ _
  have same : Int.bmod (request.pos + request.size) (2 ^ 64) = request.pos + request.size :=
    Int.bmod_eq_of_le (by omega) (by omega)
  unfold requestTarget
  rw [same]
  by_cases named : request.fileId > cfg.sizes.numFiles
  · simp [named]
  · simpa [named, inside] using Nat.not_lt.mp named

end Lengths

/-! Sequential requests. -/
section Walk
variable {cfg : FileConfig}

theorem start_place (perThread : Nat → Nat × Int) : place cfg (initVars perThread) = (0, 0) :=
  if_neg cfg.sizes.someFiles.ne

theorem first_request (perThread : Nat → Nat × Int) :
    dataRequests cfg 1 (initVars perThread) = [requestAt cfg 0 0] := by
  have notDue : ¬ FsyncDue cfg (initVars perThread) := by simp [FsyncDue, initVars]
  have first := (seq_data notDue).1
  rw [start_place] at first
  simp [dataRequests, seqRequests, outputs, first, seq_operation_data]

theorem place_after (st : GeneratorState) (none_ : cfg.requestSize ≤ 0)
    (start : (place cfg st).2 ≤ 0) : (place cfg (fileGetSeqRequest cfg st).2).2 ≤ 0 := by
  have position : (fileGetSeqRequest cfg st).2.position ≤ 0 ∨
      place cfg (fileGetSeqRequest cfg st).2 = place cfg st := by
    by_cases due : FsyncDue cfg st
    · right
      rw [seq_fsync due, place, place, fsync_request_place.1, fsync_request_place.2]
    · left
      obtain ⟨_, moved, _⟩ := seq_data due
      have size : (requestAt cfg (place cfg st).1 (place cfg st).2).size ≤ 0 :=
        (Int.min_le_left _ _).trans none_
      rw [(Prod.mk.inj (moved.trans (Prod.eta _).symm)).2]
      simp only [afterRequest]
      split
      · exact le_rfl
      · simp only
        omega
  rcases position with below | same
  · unfold place
    split
    · exact le_rfl
    · exact below
  · rwa [same]

/-- Without a positive request size the walk does not get ahead. -/
theorem stuck_sizes (none_ : cfg.requestSize ≤ 0) (calls : Nat) (st : GeneratorState)
    (start : (place cfg st).2 ≤ 0) (request : FileRequest)
    (given : request ∈ dataRequests cfg calls st) : request.size = cfg.requestSize := by
  induction calls generalizing st with
  | zero => exact absurd given List.not_mem_nil
  | succ calls ih =>
      obtain ⟨listed, data⟩ := List.mem_filter.mp given
      rcases List.mem_cons.mp listed with rfl | later
      · have notDue : ¬ FsyncDue cfg st := by
          intro due
          simp [seq_fsync due, isData, fsync_request_operation] at data
        rw [(seq_data notDue).1]
        simp only [requestAt]
        omega
      · exact ih _ (place_after st none_ start) (List.mem_filter.mpr ⟨later, data⟩)

/-- The sizes of the data requests are those of the pieces of one file. -/
theorem walk_sizes {tiles : List (Int × Int)} (tiled : Tiles cfg.requestSize cfg.fileSize 0 tiles)
    (perThread : Nat → Nat × Int) (calls : Nat) (request : FileRequest)
    (given : request ∈ dataRequests cfg calls (initVars perThread)) :
    ∃ file < cfg.sizes.numFiles, request ∈ fileRequests cfg tiles file := by
  obtain ⟨i, here⟩ := List.mem_iff_getElem?.mp given
  have member := List.mem_of_getElem? (data_requests_cyclic tiled perThread calls i request here)
  rw [pass_from_zero] at member
  obtain ⟨file, listed, cut⟩ := List.mem_flatMap.mp member
  exact ⟨file, List.mem_range.mp listed, cut⟩

/-- Every piece of the first file is requested. -/
theorem piece_requested {tiles : List (Int × Int)}
    (tiled : Tiles cfg.requestSize cfg.fileSize 0 tiles) (tile : Int × Int) (cut : tile ∈ tiles)
    (perThread : Nat → Nat × Int) :
    ∃ calls, ∃ request ∈ dataRequests cfg calls (initVars perThread),
      request ∈ fileRequests cfg tiles 0 ∧ request.size = tile.2 := by
  obtain ⟨i, bound, here⟩ := List.mem_iff_getElem.mp cut
  obtain ⟨calls, length⟩ :
      ∃ calls, (dataRequests cfg calls (initVars perThread)).length = i + 1 :=
    data_requests_go_on perThread (i + 1)
  have inside : i < (dataRequests cfg calls (initVars perThread)).length := by omega
  have cyclic := data_requests_cyclic tiled perThread calls i _ (List.getElem?_eq_getElem inside)
  have first : i < (fileRequests cfg tiles 0).length := by rwa [fileRequests, List.length_map]
  rw [pass_from_next 0 cfg.sizes.someFiles, List.length_append,
    Nat.mod_eq_of_lt (Nat.lt_add_right _ first), List.getElem?_append_left first,
    List.getElem?_eq_getElem first] at cyclic
  have same := Option.some.inj cyclic
  refine ⟨calls, _, List.getElem_mem inside, ?_, ?_⟩
  · rw [← same]
    exact List.getElem_mem first
  · rw [← same]
    simp [fileRequests, here]

end Walk

/-! The condition on the options. -/
section Condition
variable {cfg : FileConfig}

theorem request_size_int {cmdname : String} {validate : Bool} {threads : Nat} {buffers : Bool}
    {opts : FileOptions}
    (accepted : parseArguments cmdname validate threads buffers opts = .ok cfg) :
    -2 ^ 31 ≤ cfg.requestSize ∧ cfg.requestSize < 2 ^ 31 := by
  have block := cfg.sizes.blockInt
  rw [(parse_arguments_read accepted).request, requestSizeOf]
  split
  · exact ⟨Int.le_bmod (by decide), Int.bmod_lt (by decide)⟩
  · omega

/-- The requests of the pieces are executed, with the length of the piece. -/
theorem piece_passed {tiles : List (Int × Int)} (someSize : 0 < cfg.requestSize)
    (most : cfg.requestSize < 2 ^ 31) (tiled : Tiles cfg.requestSize cfg.fileSize 0 tiles)
    (file : Nat) (within : file < cfg.sizes.numFiles) (request : FileRequest)
    (cut : request ∈ fileRequests cfg tiles file) :
    requestTarget cfg request = .ok request.fileId ∧ (lenOf request : Int) = request.size := by
  obtain ⟨tile, member, rfl⟩ := List.mem_map.mp cut
  obtain ⟨after, some_, fits⟩ := tiles_inside someSize tiled tile member
  have total := cfg.sizes.totalSigned
  have short := tiles_at_most tiled tile member
  constructor
  · rw [request_taken_iff cfg _ (by simp only; omega) fits]
    exact Nat.le_of_lt within
  · exact len_of_small _ (Int.le_of_lt some_) (by simp only; omega)

theorem pieces_long_iff {tiles : List (Int × Int)} (someSize : 0 < cfg.requestSize)
    (most : cfg.requestSize < 2 ^ 31) (tiled : Tiles cfg.requestSize cfg.fileSize 0 tiles) :
    (∀ perThread calls, ∀ request ∈ dataRequests cfg calls (initVars perThread),
        requestTarget cfg request = .ok request.fileId → trailerLength ≤ lenOf request) ↔
      ∀ tile ∈ tiles, (trailerLength : Int) ≤ tile.2 := by
  constructor
  · intro long tile cut
    obtain ⟨calls, request, given, listed, size⟩ := piece_requested tiled tile cut fun _ => (0, 0)
    obtain ⟨taken, len⟩ := piece_passed someSize most tiled 0 cfg.sizes.someFiles request listed
    have := long _ calls request given taken
    omega
  · intro long perThread calls request given taken
    obtain ⟨file, within, listed⟩ := walk_sizes tiled perThread calls request given
    obtain ⟨_, len⟩ := piece_passed someSize most tiled file within request listed
    obtain ⟨tile, cut, rfl⟩ := List.mem_map.mp listed
    have := long tile cut
    simp only at len
    omega

theorem sequential_long_iff (least : -2 ^ 31 ≤ cfg.requestSize)
    (most : cfg.requestSize < 2 ^ 31) :
    (∀ perThread calls, ∀ request ∈ dataRequests cfg calls (initVars perThread),
        requestTarget cfg request = .ok request.fileId → trailerLength ≤ lenOf request) ↔
      (cfg.requestSize < 0 ∨ trailerLength ≤ min cfg.requestSize cfg.fileSize ∧
        (cfg.fileSize % cfg.requestSize = 0 ∨ trailerLength ≤ cfg.fileSize % cfg.requestSize)) := by
  have trailer : trailerLength = 12 := rfl
  -- a negative size never moves the place, and its length wraps to a long one
  by_cases negative : cfg.requestSize < 0
  · simp only [negative, true_or, iff_true]
    intro perThread calls request given _
    have start : (place cfg (initVars perThread)).2 ≤ 0 := by rw [start_place]
    rw [lenOf, stuck_sizes (Int.le_of_lt negative) calls _ start request given]
    omega
  · -- nothing is read at all, with a length of 0, or the requests tile the files
    by_cases empty : cfg.requestSize = 0 ∨ cfg.fileSize = 0
    · have nothing : min cfg.requestSize (cfg.fileSize - 0) = 0 := by omega
      constructor
      · intro long
        have first := long (fun _ => (0, 0)) 1 (requestAt cfg 0 0) (by simp [first_request])
        have size : (requestAt cfg 0 0).size = 0 := nothing
        have pos : (requestAt cfg 0 0).pos = 0 := rfl
        rw [request_taken_iff cfg _ (by omega) (by omega), lenOf, size] at first
        have := first (Nat.zero_le _)
        omega
      · omega
    · have someSize : 0 < cfg.requestSize := by omega
      have someFile : (0 : Int) < cfg.fileSize := by omega
      obtain ⟨tiles, tiled⟩ := tiles_exist someSize 0 someFile
      have pieces := tiles_at_least tiled trailerLength
      rw [Int.sub_zero] at pieces
      rw [← pieces, or_iff_right negative]
      exact pieces_long_iff someSize most tiled

/-- The length of the request for a drawn block. -/
theorem drawn_len (x : UInt64) (operation : FileOp) (request : FileRequest)
    (drawn : drawnRequest cfg.sizes operation (drawOf x) = some request) :
    0 < cfg.fileSize ∧
      request.fileId = (blockAt cfg.sizes (blockStart cfg.sizes (sbRandUniformDouble x))).1 ∧
      request.pos = (blockAt cfg.sizes (blockStart cfg.sizes (sbRandUniformDouble x))).2 ∧
      (lenOf request : Int) = min (cfg.sizes.blockSize : Int) (cfg.fileSize - request.pos) ∧
      (requestTarget cfg request = .ok request.fileId ↔ request.fileId ≤ cfg.sizes.numFiles) := by
  have block := cfg.sizes.blockInt
  have total := cfg.sizes.totalSigned
  unfold drawnRequest at drawn
  split at drawn
  · cases drawn
  · rename_i some_
    have below := Nat.mod_lt (tmppos cfg.sizes (drawOf x)) (Nat.pos_of_ne_zero some_)
    obtain rfl := Option.some.inj drawn
    have size : cfg.fileSize = cfg.sizes.fileSize := rfl
    refine ⟨Nat.pos_of_ne_zero some_, by rw [← tmppos_drawn]; rfl, by rw [← tmppos_drawn]; rfl,
      ?_, ?_⟩
    · rw [len_of_small _ (by simp only; omega) (by simp only; omega)]
      rfl
    · exact request_taken_iff cfg _ (by simp only; omega) (by simp only; omega)

/-- The first request of a run can be for any drawn block. -/
theorem drawn_passed (mode : ¬ Sequential cfg) (some_ : 0 < cfg.fileSize) (x : UInt64)
    (named : (blockAt cfg.sizes (blockStart cfg.sizes (sbRandUniformDouble x))).1 ≤
      cfg.sizes.numFiles) :
    ∃ request, drawnRequest cfg.sizes (rndOperation cfg 0 0) (drawOf x) = some request ∧
      Passed cfg (lenOf request) := by
  obtain ⟨request, drawn⟩ : ∃ request,
      drawnRequest cfg.sizes (rndOperation cfg 0 0) (drawOf x) = some request :=
    ⟨_, if_neg (Nat.pos_iff_ne_zero.mp some_)⟩
  obtain ⟨_, file, _, _, taken⟩ := drawn_len x _ request drawn
  have made : fileGetRndRequest cfg idleState 0 0 0 [drawOf x] =
      .request request (afterData idleState 0 (rndOperation cfg 0 0) request) := by
    rw [idle_request]
    exact data_request_free cfg _ 0 _ _ [] request drawn (idle_free cfg 0 _ _ request drawn)
  have data : isData request = true := by
    rw [isData, drawn_operation _ _ _ _ drawn]
    exact decide_eq_true (rnd_operation_data cfg 0 0)
  refine ⟨request, drawn, ?_⟩
  apply Passed.random mode (fun _ => (0, -1)) idleState _ ⟨[], rfl⟩ ⟨0, 0, 0, [x]⟩ request made data
  rw [taken, file]
  exact named

theorem made_drawn (st after : GeneratorState) (call : Call) (request : FileRequest)
    (made : fileGetRndRequest cfg st call.tid call.reads call.writes (call.raws.map drawOf) =
      .request request after) (data : isData request = true) :
    ∃ x operation, drawnRequest cfg.sizes operation (drawOf x) = some request := by
  unfold fileGetRndRequest at made
  split at made
  · have fsync : request.operation = .fsync := by
      cases made
      exact fsync_request_operation cfg st
    simp [isData, fsync] at data
  · obtain ⟨_, draw, member, drawn⟩ := data_request_made cfg st after _ _ _ request made
    obtain ⟨x, _, rfl⟩ := List.mem_map.mp member
    exact ⟨x, _, drawn⟩

/-- `--file-num=1 --file-test-mode=seqwr --validate`. -/
def sequentialOptions (totalSize : Nat) : FileOptions :=
  { oneBlockOptions with totalSize := totalSize, testMode := some "seqwr" }

def sequentialConfig (totalSize : Nat) (some_ : 0 < totalSize) (signed : totalSize < 2 ^ 63) :
    FileConfig :=
  { oneBlockConfig 1 with
    sizes := { CreateFiles.oneBlock with
      totalSize := totalSize, someBytes := some_, totalSigned := signed }
    testMode := .write }

end Condition

end PteSysbench.BufferBounds
