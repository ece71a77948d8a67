import PteSysbench.ActionSystem
import Mathlib.Data.Rat.Floor
import Mathlib.Tactic.Linarith

/-!
The request side of sb_fileio.c: `parse_arguments`, the two request generators
and the checks `file_execute_event` makes before it uses a file. Random numbers
are exact rationals of [0, 1); the build has libaio, mmap and fdatasync.
-/

namespace PteSysbench.FileRequests

/-! Options. -/
section Options

/-- Option values as the `sb_get_value_*` functions return them. -/
structure FileOptions where
  fileNum : Int
  totalSize : Nat
  testMode : Option String
  ioMode : Option String
  mergedRequests : Int
  blockSize : Nat
  extraFlags : List String
  extraFlagsText : String
  fsyncFreq : Int
  fsyncEnd : Bool
  fsyncAll : Bool
  fsyncMode : String
  rwRatio : ℚ

inductive FileTestMode where
  | read
  | write
  | rewrite
  | rndRead
  | rndWrite
  | rndRw
  deriving DecidableEq

inductive FileIoMode where
  | sync
  | async
  | mmap
  deriving DecidableEq

inductive FileFsyncMode where
  | all
  | data
  deriving DecidableEq

structure FileFlags where
  sync : Bool
  dsync : Bool
  direct : Bool
  deriving DecidableEq

/-- `num_files`, `total_size` and `file_block_size` after their checks. -/
structure FileSizes where
  numFiles : Nat
  totalSize : Nat
  blockSize : Nat
  someFiles : 0 < numFiles
  filesUnsigned : numFiles < 2 ^ 32
  someBytes : 0 < totalSize
  totalSigned : totalSize < 2 ^ 63
  someBlock : 0 < blockSize
  blockInt : blockSize < 2 ^ 31
  deriving DecidableEq

/-- `file_size = total_size / num_files`. -/
def FileSizes.fileSize (sizes : FileSizes) : Nat := sizes.totalSize / sizes.numFiles

/-- `validate` and `threads` are those of `sb_globals`. -/
structure FileConfig where
  sizes : FileSizes
  testMode : FileTestMode
  ioMode : FileIoMode
  mergedRequests : Int
  requestSize : Int
  extraFlags : FileFlags
  fsyncFreq : Int
  fsyncEnd : Bool
  fsyncAll : Bool
  fsyncMode : FileFsyncMode
  rwRatio : ℚ
  validate : Bool
  threads : Nat
  deriving DecidableEq

def FileConfig.fileSize (cfg : FileConfig) : Nat := cfg.sizes.fileSize

/-- The mode is read for the run command only; the static's initial value is 0. -/
def parseTestMode (cmdname : String) (mode : Option String) : Except String FileTestMode :=
  if cmdname = "run" then
    match mode with
    | none => .error "Missing required argument: --file-test-mode\n"
    | some mode =>
        if mode = "seqwr" then .ok .write
        else if mode = "seqrewr" then .ok .rewrite
        else if mode = "seqrd" then .ok .read
        else if mode = "rndrd" then .ok .rndRead
        else if mode = "rndwr" then .ok .rndWrite
        else if mode = "rndrw" then .ok .rndRw
        else .error ("Invalid IO operations mode: " ++ mode ++ ".")
  else .ok .read

def parseIoMode (mode : Option String) : Except String FileIoMode :=
  let mode := mode.getD "sync"
  if mode = "sync" then .ok .sync
  else if mode = "async" then .ok .async
  else if mode = "mmap" then .ok .mmap
  else .error ("unknown I/O mode: " ++ mode)

def parseExtraFlags (text : String) : FileFlags → List String → Except String FileFlags
  | flags, [] => .ok flags
  | flags, value :: rest =>
      if value = "sync" then parseExtraFlags text { flags with sync := true } rest
      else if value = "dsync" then parseExtraFlags text { flags with dsync := true } rest
      else if value = "direct" then parseExtraFlags text { flags with direct := true } rest
      else .error ("Invalid value for file-extra-flags: " ++ text)

def parseFsyncMode (mode : String) : Except String FileFsyncMode :=
  if mode = "fsync" then .ok .all
  else if mode = "fdatasync" then .ok .data
  else .error ("Invalid fsync mode: " ++ mode ++ ".")

/-- `num_files` is unsigned: its check `<= 0` refuses 0 only. -/
def parseNumFiles (fileNum : Int) : Except String { n : Nat // 0 < n ∧ n < 2 ^ 32 } :=
  let numFiles := (fileNum % 2 ^ 32).toNat
  if none_ : numFiles = 0 then .error ("Invalid value for file-num: " ++ toString numFiles)
  else .ok ⟨numFiles, by omega, by omega⟩

/-- An `unsigned long long` read into a `long long`. -/
def parseTotalSize (size : Nat) : Except String { n : Nat // 0 < n ∧ n < 2 ^ 63 } :=
  let totalSize := Int.bmod size (2 ^ 64)
  if none_ : totalSize ≤ 0 then
    .error ("Invalid value for file-total-size: " ++ toString totalSize)
  else .ok ⟨totalSize.toNat, by omega, by
    have bound : totalSize < _ := Int.bmod_lt (by decide)
    omega⟩

/-- An `unsigned long long` read into an `int`. -/
def parseBlockSize (size : Nat) : Except String { n : Nat // 0 < n ∧ n < 2 ^ 31 } :=
  let blockSize := Int.bmod size (2 ^ 32)
  if none_ : blockSize ≤ 0 then
    .error ("Invalid value for file-block-size: " ++ toString blockSize ++ ".")
  else .ok ⟨blockSize.toNat, by omega, by
    have bound : blockSize < _ := Int.bmod_lt (by decide)
    omega⟩

/-- `file_block_size * file_merged_requests` is a product of two `int`. -/
def requestSizeOf (blockSize : Nat) (merged : Int) : Int :=
  if 0 < merged then Int.bmod (blockSize * merged) (2 ^ 32) else blockSize

/-- `buffers` says whether the buffer of every thread could be allocated. -/
def parseArguments (cmdname : String) (validate : Bool) (threads : Nat) (buffers : Bool)
    (opts : FileOptions) : Except String FileConfig := do
  let numFiles ← parseNumFiles opts.fileNum
  let totalSize ← parseTotalSize opts.totalSize
  let testMode ← parseTestMode cmdname opts.testMode
  let ioMode ← parseIoMode opts.ioMode
  if opts.mergedRequests < 0 then
    .error ("Invalid value for file-merged-requests: " ++ toString opts.mergedRequests ++ ".")
  else do
    let blockSize ← parseBlockSize opts.blockSize
    let extraFlags ← parseExtraFlags opts.extraFlagsText ⟨false, false, false⟩ opts.extraFlags
    if opts.fsyncFreq < 0 then
      .error ("Invalid value for file-fsync-freq: " ++ toString opts.fsyncFreq ++ ".")
    else do
      let fsyncMode ← parseFsyncMode opts.fsyncMode
      if opts.rwRatio < 0 then
        .error ("Invalid value for --file-rw-ratio: " ++ toString opts.rwRatio ++ ".")
      else if buffers = false then .error "Failed to allocate a memory buffer"
      else .ok {
        sizes := {
          numFiles := numFiles
          totalSize := totalSize
          blockSize := blockSize
          someFiles := numFiles.2.1
          filesUnsigned := numFiles.2.2
          someBytes := totalSize.2.1
          totalSigned := totalSize.2.2
          someBlock := blockSize.2.1
          blockInt := blockSize.2.2 }
        testMode := testMode
        ioMode := ioMode
        mergedRequests := opts.mergedRequests
        requestSize := requestSizeOf blockSize opts.mergedRequests
        extraFlags := extraFlags
        fsyncFreq := if opts.fsyncAll then 0 else opts.fsyncFreq
        fsyncEnd := if opts.fsyncAll then false else opts.fsyncEnd
        fsyncAll := opts.fsyncAll
        fsyncMode := fsyncMode
        rwRatio := opts.rwRatio
        validate := validate
        threads := threads }
end Options

/-! What an accepted command line says. -/
section Accepted

theorem num_files_value (number : Int) (numFiles : { n : Nat // 0 < n ∧ n < 2 ^ 32 })
    (parsed : parseNumFiles number = .ok numFiles) :
    (numFiles : Nat) = (number % 2 ^ 32).toNat := by
  simp only [parseNumFiles] at parsed
  split at parsed
  · cases parsed
  · obtain rfl := Except.ok.inj parsed
    rfl

theorem total_size_value (size : Nat) (totalSize : { n : Nat // 0 < n ∧ n < 2 ^ 63 })
    (parsed : parseTotalSize size = .ok totalSize) :
    ((totalSize : Nat) : Int) = Int.bmod size (2 ^ 64) := by
  unfold parseTotalSize at parsed
  by_cases none_ : Int.bmod size (2 ^ 64) ≤ 0
  · rw [dif_pos none_] at parsed
    cases parsed
  · rw [dif_neg none_] at parsed
    have same := congrArg Subtype.val (Except.ok.inj parsed)
    simp only at same
    rw [← same, Int.toNat_of_nonneg (Int.le_of_lt (Int.not_le.mp none_))]

theorem block_size_value (size : Nat) (blockSize : { n : Nat // 0 < n ∧ n < 2 ^ 31 })
    (parsed : parseBlockSize size = .ok blockSize) :
    ((blockSize : Nat) : Int) = Int.bmod size (2 ^ 32) := by
  unfold parseBlockSize at parsed
  by_cases none_ : Int.bmod size (2 ^ 32) ≤ 0
  · rw [dif_pos none_] at parsed
    cases parsed
  · rw [dif_neg none_] at parsed
    have same := congrArg Subtype.val (Except.ok.inj parsed)
    simp only at same
    rw [← same, Int.toNat_of_nonneg (Int.le_of_lt (Int.not_le.mp none_))]

/-- The numbers of a configuration and the options they come from. -/
structure ParsedFrom (validate : Bool) (threads : Nat) (opts : FileOptions) (cfg : FileConfig) :
    Prop where
  files : cfg.sizes.numFiles = (opts.fileNum % 2 ^ 32).toNat
  total : (cfg.sizes.totalSize : Int) = Int.bmod opts.totalSize (2 ^ 64)
  block : (cfg.sizes.blockSize : Int) = Int.bmod opts.blockSize (2 ^ 32)
  merged : 0 ≤ opts.mergedRequests
  request : cfg.requestSize = requestSizeOf cfg.sizes.blockSize opts.mergedRequests
  validate : cfg.validate = validate
  threads : cfg.threads = threads

theorem parse_arguments_read {cmdname : String} {validate : Bool} {threads : Nat}
    {buffers : Bool} {opts : FileOptions} {cfg : FileConfig}
    (accepted : parseArguments cmdname validate threads buffers opts = .ok cfg) :
    ParsedFrom validate threads opts cfg := by
  obtain ⟨numFiles, files, accepted⟩ := ActionSystem.bind_ok _ _ _ accepted
  obtain ⟨totalSize, total, accepted⟩ := ActionSystem.bind_ok _ _ _ accepted
  obtain ⟨_, _, accepted⟩ := ActionSystem.bind_ok _ _ _ accepted
  obtain ⟨_, _, accepted⟩ := ActionSystem.bind_ok _ _ _ accepted
  split at accepted
  · cases accepted
  · rename_i merged
    obtain ⟨blockSize, block, accepted⟩ := ActionSystem.bind_ok _ _ _ accepted
    obtain ⟨_, _, accepted⟩ := ActionSystem.bind_ok _ _ _ accepted
    split at accepted
    · cases accepted
    · obtain ⟨_, _, accepted⟩ := ActionSystem.bind_ok _ _ _ accepted
      split at accepted
      · cases accepted
      · split at accepted
        · cases accepted
        · obtain rfl := Except.ok.inj accepted
          exact ⟨num_files_value _ numFiles files, total_size_value _ totalSize total,
            block_size_value _ blockSize block, Int.not_lt.mp merged, rfl, rfl, rfl⟩
end Accepted

/-! The generators. -/
section Generators

inductive FileOp where
  | null
  | read
  | write
  | fsync
  deriving DecidableEq

structure FileRequest where
  operation : FileOp
  fileId : Nat
  pos : Int
  size : Int
  deriving DecidableEq

/-- The static variables of the generators. `perThread` holds the
`buffer_file_id` and `buffer_pos` of every thread. -/
structure GeneratorState where
  position : Int
  currentFile : Nat
  fsyncedFile : Nat
  isDirty : Bool
  reqPerformed : Nat
  perThread : Nat → Nat × Int

/-- `per_thread` comes from malloc and is not initialized here. -/
def initVars (perThread : Nat → Nat × Int) : GeneratorState :=
  { position := 0, currentFile := 0, fsyncedFile := 0, isDirty := false, reqPerformed := 0,
    perThread := perThread }

/-- The next fsync of a round; the last file ends the round. -/
def fsyncRequest (cfg : FileConfig) (st : GeneratorState) : FileRequest × GeneratorState :=
  let request : FileRequest :=
    { operation := .fsync, fileId := st.fsyncedFile, pos := 0, size := 0 }
  let fsynced := (st.fsyncedFile + 1) % 2 ^ 32
  if fsynced = cfg.sizes.numFiles then
    (request, { st with fsyncedFile := 0, isDirty := false })
  else (request, { st with fsyncedFile := fsynced })

def fileGetSeqRequest (cfg : FileConfig) (st : GeneratorState) : FileRequest × GeneratorState :=
  let operation : FileOp :=
    if cfg.testMode = .write ∨ cfg.testMode = .rewrite then .write else .read
  if cfg.fsyncFreq ≠ 0 ∧ operation = .write ∧ st.isDirty ∧ st.reqPerformed % cfg.fsyncFreq = 0 then
    fsyncRequest cfg st
  else
    -- behind the last file the walk begins again
    let rewound := decide (st.currentFile = cfg.sizes.numFiles)
    let position := if rewound then 0 else st.position
    let currentFile := if rewound then 0 else st.currentFile
    let size := min cfg.requestSize (cfg.fileSize - position)
    let next := position + size
    ({ operation := operation, fileId := currentFile, pos := position, size := size },
      { st with
        reqPerformed := (st.reqPerformed + 1) % 2 ^ 32
        isDirty := if operation = .write then true else st.isDirty
        position := if next = cfg.fileSize then 0 else next
        currentFile := if next = cfg.fileSize then (currentFile + 1) % 2 ^ 32 else currentFile })

/-- A value of `sb_rand_uniform_double`. -/
structure Draw where
  value : ℚ
  nonneg : 0 ≤ value
  below : value < 1

/-- `tmppos`, rounded down to a whole block of the whole range. -/
def tmppos (sizes : FileSizes) (draw : Draw) : Nat :=
  let raw := (draw.value * sizes.totalSize).floor.toNat
  raw - raw % sizes.blockSize

/-- The request of one draw. Both `tmppos / file_size` and `tmppos % file_size`
divide by `file_size`. -/
def drawnRequest (sizes : FileSizes) (operation : FileOp) (draw : Draw) : Option FileRequest :=
  if sizes.fileSize = 0 then none
  else
    let pos : Int := (tmppos sizes draw % sizes.fileSize : Nat)
    some {
      operation := operation
      fileId := tmppos sizes draw / sizes.fileSize % 2 ^ 32
      pos := pos
      size := min (sizes.blockSize : Int) (sizes.fileSize - pos) }

/-- In validation mode: another thread's buffer holds the block. -/
def inUse (cfg : FileConfig) (st : GeneratorState) (tid : Nat) (request : FileRequest) : Bool :=
  cfg.validate && (List.range cfg.threads).any fun i =>
    i != tid && (st.perThread i == (request.fileId, request.pos))

inductive RndOutcome where
  | request (request : FileRequest) (after : GeneratorState)
  | divisionByZero
  /-- Every draw so far was of a block in use. -/
  | retrying

def dataRequest (cfg : FileConfig) (st : GeneratorState) (tid : Nat) (operation : FileOp) :
    List Draw → RndOutcome
  | [] => .retrying
  | draw :: rest =>
      match drawnRequest cfg.sizes operation draw with
      | none => .divisionByZero
      | some request =>
          if inUse cfg st tid request then dataRequest cfg st tid operation rest
          else .request request {
            st with
            perThread := fun i =>
              if i = tid then (request.fileId, request.pos) else st.perThread i
            reqPerformed := (st.reqPerformed + 1) % 2 ^ 32
            isDirty := if operation = .write then true else st.isDirty }

/-- `reads` and `writes` are the counters of the thread. -/
def rndOperation (cfg : FileConfig) (reads writes : Nat) : FileOp :=
  match cfg.testMode with
  | .rndWrite => .write
  | .rndRw => if ((reads + 1 : ℚ) / (writes + 1)) < cfg.rwRatio then .read else .write
  | _ => .read

def fileGetRndRequest (cfg : FileConfig) (st : GeneratorState) (tid reads writes : Nat)
    (draws : List Draw) : RndOutcome :=
  if cfg.fsyncFreq ≠ 0 ∧ st.isDirty ∧ st.reqPerformed % cfg.fsyncFreq = 0 then
    let (request, after) := fsyncRequest cfg st
    .request request after
  else dataRequest cfg st tid (rndOperation cfg reads writes) draws

def fileNextEvent (cfg : FileConfig) (st : GeneratorState) (tid reads writes : Nat)
    (draws : List Draw) : RndOutcome :=
  if cfg.testMode = .write ∨ cfg.testMode = .rewrite ∨ cfg.testMode = .read then
    let (request, after) := fileGetSeqRequest cfg st
    .request request after
  else fileGetRndRequest cfg st tid reads writes draws

/-- The checks of `file_execute_event`; accepted, the index of `files` it uses. -/
def requestTarget (cfg : FileConfig) (request : FileRequest) : Except String Nat :=
  if request.fileId > cfg.sizes.numFiles then
    .error ("Incorrect file id in request: " ++ toString request.fileId)
  else if Int.bmod (request.pos + request.size) (2 ^ 64) > cfg.fileSize then
    .error ("I/O request exceeds file size. file id: " ++ toString request.fileId ++
      " file size: " ++ toString cfg.fileSize ++ " req offset: " ++ toString request.pos ++
      " req size: " ++ toString request.size)
  else .ok request.fileId
end Generators

/-! Which draws give a request inside a file. -/
section Inside

/-- What a READ or WRITE request must satisfy. -/
def InsideFile (cfg : FileConfig) (request : FileRequest) : Prop :=
  request.fileId < cfg.sizes.numFiles ∧ 0 ≤ request.pos ∧ 0 < request.size ∧
    request.pos + request.size ≤ cfg.fileSize

def RndSafe (cfg : FileConfig) : RndOutcome → Prop
  | .request request _ =>
      request.operation = .read ∨ request.operation = .write → InsideFile cfg request
  | .divisionByZero => False
  | .retrying => True

/-- The block of the draw starts behind the last file, in the bytes that
`total_size / num_files` leaves over, and its file number is below 2^32. -/
def InRemainder (sizes : FileSizes) (draw : Draw) : Prop :=
  sizes.numFiles * sizes.fileSize ≤ tmppos sizes draw ∧
    tmppos sizes draw < 2 ^ 32 * sizes.fileSize

theorem tmppos_lt (sizes : FileSizes) (draw : Draw) : tmppos sizes draw < sizes.totalSize := by
  have positive : (0 : ℚ) < sizes.totalSize := by exact_mod_cast sizes.someBytes
  have scaled : draw.value * sizes.totalSize < sizes.totalSize := by
    calc draw.value * sizes.totalSize
        < 1 * sizes.totalSize := mul_lt_mul_of_pos_right draw.below positive
      _ = sizes.totalSize := one_mul _
  have floored : (draw.value * sizes.totalSize).floor < (sizes.totalSize : Int) := by
    rw [Rat.floor_lt_iff]
    exact_mod_cast scaled
  have some_ := sizes.someBytes
  unfold tmppos
  simp only []
  omega

/-- Less than one byte a file is left over. -/
theorem total_lt (sizes : FileSizes) :
    sizes.totalSize < sizes.numFiles * (sizes.fileSize + 1) :=
  Nat.lt_mul_div_succ _ sizes.someFiles

/-- A block number wraps around in `file_id` at most once, and then to a file
that exists. -/
theorem file_id_lt_iff (sizes : FileSizes) (draw : Draw) (some_ : sizes.fileSize ≠ 0) :
    tmppos sizes draw / sizes.fileSize % 2 ^ 32 < sizes.numFiles ↔ ¬ InRemainder sizes draw := by
  have positive : 0 < sizes.fileSize := Nat.pos_of_ne_zero some_
  have files := sizes.filesUnsigned
  have bound := Nat.lt_trans (tmppos_lt sizes draw) (total_lt sizes)
  -- an unsigned file number wraps around at most once, onto the first files
  have belowTwice : tmppos sizes draw / sizes.fileSize < 2 ^ 32 + sizes.numFiles := by
    rw [Nat.div_lt_iff_lt_mul positive]
    nlinarith
  have remainder : InRemainder sizes draw ↔
      sizes.numFiles ≤ tmppos sizes draw / sizes.fileSize ∧
        tmppos sizes draw / sizes.fileSize < 2 ^ 32 := by
    rw [Nat.le_div_iff_mul_le positive, Nat.div_lt_iff_lt_mul positive]
    exact Iff.rfl
  rw [remainder]
  by_cases wraps : tmppos sizes draw / sizes.fileSize < 2 ^ 32
  · rw [Nat.mod_eq_of_lt wraps]
    omega
  · omega

theorem drawn_request_inside_iff (cfg : FileConfig) (operation : FileOp) (draw : Draw) :
    (∃ request, drawnRequest cfg.sizes operation draw = some request ∧ InsideFile cfg request) ↔
      cfg.fileSize ≠ 0 ∧ ¬ InRemainder cfg.sizes draw := by
  unfold drawnRequest
  by_cases none_ : cfg.sizes.fileSize = 0
  · simp [none_, FileConfig.fileSize]
  · rw [if_neg none_]
    have within : tmppos cfg.sizes draw % cfg.sizes.fileSize < cfg.sizes.fileSize :=
      Nat.mod_lt _ (Nat.pos_of_ne_zero none_)
    have block := cfg.sizes.someBlock
    simp only [Option.some.injEq, exists_eq_left', InsideFile, FileConfig.fileSize,
      file_id_lt_iff cfg.sizes draw none_]
    constructor
    · rintro ⟨outside, _⟩
      exact ⟨none_, outside⟩
    · rintro ⟨_, outside⟩
      exact ⟨outside, by omega, by omega, by omega⟩

theorem rnd_operation_data (cfg : FileConfig) (reads writes : Nat) :
    rndOperation cfg reads writes = .read ∨ rndOperation cfg reads writes = .write := by
  unfold rndOperation
  split
  · exact Or.inr rfl
  · split
    · exact Or.inl rfl
    · exact Or.inr rfl
  · exact Or.inl rfl

theorem fsync_request_operation (cfg : FileConfig) (st : GeneratorState) :
    (fsyncRequest cfg st).1.operation = .fsync := by
  simp only [fsyncRequest]
  split <;> rfl

theorem fsync_request_safe (cfg : FileConfig) (st : GeneratorState) :
    RndSafe cfg (.request (fsyncRequest cfg st).1 (fsyncRequest cfg st).2) := by
  simp [RndSafe, fsync_request_operation]

/-- However many draws the retry loop takes, its request is that of one of them. -/
theorem data_request_safe (cfg : FileConfig) (st : GeneratorState) (tid : Nat)
    (operation : FileOp) (draws : List Draw)
    (inside : ∀ draw ∈ draws, ∃ request,
      drawnRequest cfg.sizes operation draw = some request ∧ InsideFile cfg request) :
    RndSafe cfg (dataRequest cfg st tid operation draws) := by
  induction draws with
  | nil => trivial
  | cons draw rest ih =>
      obtain ⟨request, drawn, fits⟩ := inside draw List.mem_cons_self
      unfold dataRequest
      simp only [drawn]
      split
      -- a block in use: draw again
      · exact ih fun other member => inside other (List.mem_cons_of_mem _ member)
      · exact fun _ => fits

/-- The generator behind a data request. -/
def afterData (st : GeneratorState) (tid : Nat) (operation : FileOp) (request : FileRequest) :
    GeneratorState :=
  { st with
    perThread := fun i => if i = tid then (request.fileId, request.pos) else st.perThread i
    reqPerformed := (st.reqPerformed + 1) % 2 ^ 32
    isDirty := if operation = .write then true else st.isDirty }

/-- A block that is not in use is not drawn again. -/
theorem data_request_free (cfg : FileConfig) (st : GeneratorState) (tid : Nat)
    (operation : FileOp) (draw : Draw) (rest : List Draw) (request : FileRequest)
    (drawn : drawnRequest cfg.sizes operation draw = some request)
    (free : inUse cfg st tid request = false) :
    dataRequest cfg st tid operation (draw :: rest) =
      .request request (afterData st tid operation request) := by
  unfold dataRequest
  simp only [drawn, free, Bool.false_eq_true, ↓reduceIte]
  rfl

theorem data_request_made (cfg : FileConfig) (st after : GeneratorState) (tid : Nat)
    (operation : FileOp) (draws : List Draw) (request : FileRequest)
    (made : dataRequest cfg st tid operation draws = .request request after) :
    after = afterData st tid operation request ∧
      ∃ draw ∈ draws, drawnRequest cfg.sizes operation draw = some request := by
  induction draws with
  | nil => cases made
  | cons draw rest ih =>
      unfold dataRequest at made
      cases drawn : drawnRequest cfg.sizes operation draw with
      | none => simp [drawn] at made
      | some here =>
          simp only [drawn] at made
          split at made
          · obtain ⟨moved, other, member, same⟩ := ih made
            exact ⟨moved, other, List.mem_cons_of_mem _ member, same⟩
          · cases made
            exact ⟨rfl, draw, List.mem_cons_self, drawn⟩

theorem drawn_operation (sizes : FileSizes) (operation : FileOp) (draw : Draw)
    (request : FileRequest) (drawn : drawnRequest sizes operation draw = some request) :
    request.operation = operation := by
  unfold drawnRequest at drawn
  split at drawn
  · cases drawn
  · cases drawn
    rfl

theorem rnd_request_cases (cfg : FileConfig) (st after : GeneratorState) (tid reads writes : Nat)
    (draws : List Draw) (request : FileRequest)
    (made : fileGetRndRequest cfg st tid reads writes draws = .request request after) :
    request.operation = .fsync ∨
      ∃ draw, drawnRequest cfg.sizes (rndOperation cfg reads writes) draw = some request := by
  unfold fileGetRndRequest at made
  split at made
  · left
    cases made
    exact fsync_request_operation cfg st
  · right
    obtain ⟨_, draw, _, drawn⟩ := data_request_made cfg st after tid _ draws request made
    exact ⟨draw, drawn⟩

/-- A state in which no block is in use and no fsync is due. -/
def idleState : GeneratorState := initVars fun _ => (0, -1)

theorem idle_request (cfg : FileConfig) (reads writes : Nat) (draw : Draw) :
    fileGetRndRequest cfg idleState 0 reads writes [draw] =
      dataRequest cfg idleState 0 (rndOperation cfg reads writes) [draw] := by
  simp [fileGetRndRequest, idleState, initVars]

theorem idle_free (cfg : FileConfig) (tid : Nat) (operation : FileOp) (draw : Draw)
    (request : FileRequest) (drawn : drawnRequest cfg.sizes operation draw = some request) :
    inUse cfg idleState tid request = false := by
  unfold drawnRequest at drawn
  split at drawn
  · cases drawn
  · have nonneg : request.pos ≠ -1 := by
      cases drawn
      simp only
      omega
    simp [inUse, idleState, initVars, Prod.ext_iff, nonneg.symm]

theorem inside_of_idle_safe (cfg : FileConfig) (reads writes : Nat) (draw : Draw)
    (safe : RndSafe cfg (fileGetRndRequest cfg idleState 0 reads writes [draw])) :
    ∃ request, drawnRequest cfg.sizes (rndOperation cfg reads writes) draw = some request ∧
      InsideFile cfg request := by
  rw [idle_request] at safe
  cases drawn : drawnRequest cfg.sizes (rndOperation cfg reads writes) draw with
  | none =>
      unfold dataRequest at safe
      simp only [drawn] at safe
      exact absurd safe id
  | some request =>
      have free := idle_free cfg 0 _ draw request drawn
      have kind := drawn_operation _ _ _ _ drawn
      rw [data_request_free cfg _ 0 _ draw [] request drawn free] at safe
      exact ⟨request, rfl, safe (kind ▸ rnd_operation_data cfg reads writes)⟩

theorem target_below_iff (cfg : FileConfig) (request : FileRequest) :
    (∀ i, requestTarget cfg request = .ok i → i < cfg.sizes.numFiles) ↔
      ¬ (request.fileId = cfg.sizes.numFiles ∧
        Int.bmod (request.pos + request.size) (2 ^ 64) ≤ cfg.fileSize) := by
  unfold requestTarget
  split
  · simp only [reduceCtorEq, false_implies, implies_true, true_iff]
    omega
  · split
    · simp only [reduceCtorEq, false_implies, implies_true, true_iff]
      omega
    · simp only [Except.ok.injEq, forall_eq']
      omega

/-- Draws that may come give requests inside the files, and a request is executed
on an open file, exactly when no draw comes from the remainder of a total that is
at least one byte a file, and the request is not for file `num_files`. -/
theorem rnd_requests_inside_iff (cfg : FileConfig) (possible : Draw → Prop)
    (request : FileRequest) :
    ((∀ st tid reads writes draws, (∀ draw ∈ draws, possible draw) →
        RndSafe cfg (fileGetRndRequest cfg st tid reads writes draws)) ∧
      ∀ i, requestTarget cfg request = .ok i → i < cfg.sizes.numFiles) ↔
    ((∀ draw, possible draw → cfg.fileSize ≠ 0 ∧ ¬ InRemainder cfg.sizes draw) ∧
      ¬ (request.fileId = cfg.sizes.numFiles ∧
        Int.bmod (request.pos + request.size) (2 ^ 64) ≤ cfg.fileSize)) := by
  rw [target_below_iff]
  refine and_congr_left fun _ => ?_
  constructor
  · intro safe draw drawn
    have here := safe idleState 0 0 0 [draw] (by simpa using drawn)
    exact (drawn_request_inside_iff cfg _ draw).mp (inside_of_idle_safe cfg 0 0 draw here)
  · intro outside st tid reads writes draws drawn
    unfold fileGetRndRequest
    split
    · exact fsync_request_safe cfg st
    · apply data_request_safe
      intro draw member
      exact (drawn_request_inside_iff cfg _ draw).mpr (outside draw (drawn draw member))

/-- `--file-num=3 --file-total-size=10 --file-block-size=1 --file-test-mode=rndrd`. -/
def tailOptions : FileOptions :=
  { fileNum := 3, totalSize := 10, testMode := some "rndrd", ioMode := some "sync",
    mergedRequests := 0, blockSize := 1, extraFlags := [], extraFlagsText := "",
    fsyncFreq := 100, fsyncEnd := true, fsyncAll := false, fsyncMode := "fsync", rwRatio := 3 / 2 }

def tailConfig : FileConfig :=
  { sizes := ⟨3, 10, 1, by decide, by decide, by decide, by decide, by decide, by decide⟩
    testMode := .rndRead, ioMode := .sync, mergedRequests := 0, requestSize := 1
    extraFlags := ⟨false, false, false⟩, fsyncFreq := 100, fsyncEnd := true, fsyncAll := false
    fsyncMode := .all, rwRatio := 3 / 2, validate := false, threads := 1 }

def nineTenths : Draw := ⟨9 / 10, by norm_num, by norm_num⟩

/-- The tenth byte of three files of three bytes: file 3, which the executor takes. -/
theorem last_byte_in_file_three :
    parseArguments "run" false 1 true tailOptions = .ok tailConfig ∧
      drawnRequest tailConfig.sizes .read nineTenths = some ⟨.read, 3, 0, 1⟩ ∧
      ¬ RndSafe tailConfig (fileGetRndRequest tailConfig idleState 0 0 0 [nineTenths]) ∧
      requestTarget tailConfig ⟨.read, 3, 0, 1⟩ = .ok 3 := by
  have drawn : drawnRequest tailConfig.sizes .read nineTenths = some ⟨.read, 3, 0, 1⟩ := by
    decide +kernel
  refine ⟨by decide +kernel, drawn, fun safe => ?_, by decide +kernel⟩
  obtain ⟨request, same, inside⟩ := inside_of_idle_safe tailConfig 0 0 nineTenths safe
  cases drawn.symm.trans same
  exact absurd inside.1 (by decide)
end Inside
end PteSysbench.FileRequests
