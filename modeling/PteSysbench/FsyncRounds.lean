import PteSysbench.SequentialTiles
import Mathlib.Data.List.Count

/-!
The fsync requests among all requests of a run. `is_dirty` and `fsynced_file` hold the
position in a round while `req_performed` stands still.
-/

namespace PteSysbench.FsyncRounds

open ActionSystem FileRequests SequentialTiles

/-- A call of `file_next_event`. -/
structure Call where
  tid : Nat
  reads : Nat
  writes : Nat
  draws : List Draw

/-- `requests` is history. -/
structure State where
  generator : GeneratorState
  requests : List FileRequest

/-- A call that draws again is still on its way. -/
def step (cfg : FileConfig) (s : State) (call : Call) : Option State :=
  match fileNextEvent cfg s.generator call.tid call.reads call.writes call.draws with
  | .request request after => some { generator := after, requests := s.requests ++ [request] }
  | .divisionByZero | .retrying => none

def start (perThread : Nat → Nat × Int) : State :=
  { generator := initVars perThread, requests := [] }

/-! What the requests are to be. -/
section Rounds

def fsyncOf (file : Nat) : FileRequest :=
  { operation := .fsync, fileId := file, pos := 0, size := 0 }

def RoundAt (files : Nat) (requests : List FileRequest) (start : Nat) : Prop :=
  ∀ file, file < files → requests[start + file]? = some (fsyncOf file)

/-- A write was generated since the last completed round. -/
def WriteSince (files : Nat) (requests : List FileRequest) : Prop :=
  ∃ i request, requests[i]? = some request ∧ request.operation = .write ∧
    ∀ start, i < start → ¬ RoundAt files requests start

/-- The last request was a data request that brought their number to a multiple of the
frequency. -/
structure Due (cfg : FileConfig) (requests : List FileRequest) : Prop where
  often : cfg.fsyncFreq ≠ 0
  last : ∃ request, requests.getLast? = some request ∧ isData request = true
  count : (requests.countP isData : Int) % cfg.fsyncFreq = 0
  write : WriteSince cfg.sizes.numFiles requests

structure RoundsKept (cfg : FileConfig) (requests : List FileRequest) : Prop where
  follows : ∀ start, Due cfg (requests.take start) → ∀ file, file < cfg.sizes.numFiles →
    start + file < requests.length → requests[start + file]? = some (fsyncOf file)
  belongs : ∀ i request, requests[i]? = some request → request.operation = .fsync →
    ∃ start, start ≤ i ∧ i < start + cfg.sizes.numFiles ∧ Due cfg (requests.take start)
  never : cfg.testMode = .read ∨ cfg.testMode = .rndRead ∨ cfg.fsyncFreq = 0 →
    ∀ request ∈ requests, request.operation ≠ .fsync

variable {files : Nat} {requests : List FileRequest} {request : FileRequest}

theorem fsync_not_data (file : Nat) : isData (fsyncOf file) = false := rfl

theorem round_at_old (start : Nat) (complete : RoundAt files requests start) :
    RoundAt files (requests ++ [request]) start := by
  intro file within
  have here := complete file within
  obtain ⟨bound, _⟩ := List.getElem?_eq_some_iff.mp here
  rwa [List.getElem?_append_left bound]

/-- The last request is no fsync, or not the round's last one: no new round is complete. -/
theorem round_at_concat (someFiles : 0 < files) (start : Nat)
    (complete : RoundAt files (requests ++ [request]) start)
    (other : request ≠ fsyncOf (files - 1)) : RoundAt files requests start := by
  intro file within
  have here := complete file within
  have last := complete (files - 1) (by omega)
  obtain ⟨bound, found⟩ := List.getElem?_eq_some_iff.mp last
  rw [List.length_append, List.length_singleton] at bound
  by_cases inside : start + (files - 1) < requests.length
  · rwa [List.getElem?_append_left (by omega)] at here
  · have atEnd : start + (files - 1) = requests.length := by omega
    rw [atEnd, List.getElem?_concat_length] at last
    exact absurd (Option.some.inj last) other

theorem write_since_concat (someFiles : 0 < files) (other : request ≠ fsyncOf (files - 1)) :
    WriteSince files (requests ++ [request]) ↔
      request.operation = .write ∨ WriteSince files requests := by
  constructor
  · rintro ⟨i, found, here, write, none_⟩
    by_cases inside : i < requests.length
    · rw [List.getElem?_append_left inside] at here
      exact Or.inr ⟨i, found, here, write, fun start after complete =>
        none_ start after (round_at_old start complete)⟩
    · have bound := (List.getElem?_eq_some_iff.mp here).1
      rw [List.length_append, List.length_singleton] at bound
      obtain rfl : i = requests.length := by omega
      rw [List.getElem?_concat_length] at here
      exact Or.inl (Option.some.inj here ▸ write)
  · rintro (write | ⟨i, found, here, write, none_⟩)
    · refine ⟨requests.length, request, List.getElem?_concat_length, write, ?_⟩
      intro start after complete
      have bound := (List.getElem?_eq_some_iff.mp (complete 0 someFiles)).1
      rw [List.length_append, List.length_singleton] at bound
      omega
    · obtain ⟨bound, _⟩ := List.getElem?_eq_some_iff.mp here
      refine ⟨i, found, by rwa [List.getElem?_append_left bound], write, ?_⟩
      exact fun start after complete =>
        none_ start after (round_at_concat someFiles start complete other)

/-- A complete round at the end leaves no write behind. -/
theorem round_ends_writes (start : Nat) (complete : RoundAt files requests start)
    (atEnd : start + files = requests.length) : ¬ WriteSince files requests := by
  rintro ⟨i, found, here, write, none_⟩
  by_cases after : i < start
  · exact none_ start after complete
  · obtain ⟨bound, _⟩ := List.getElem?_eq_some_iff.mp here
    have fsync := complete (i - start) (by omega)
    rw [Nat.add_sub_cancel' (Nat.le_of_not_lt after), here] at fsync
    rw [Option.some.inj fsync] at write
    cases write

end Rounds

/-! What one call does. -/
section Calls
variable {cfg : FileConfig} {st after : GeneratorState} {request : FileRequest}

/-- The condition of both generators, but for the mode of the sequential one. -/
def RoundDue (cfg : FileConfig) (st : GeneratorState) : Prop :=
  cfg.fsyncFreq ≠ 0 ∧ st.isDirty = true ∧ st.reqPerformed % cfg.fsyncFreq = 0

def ReadOnly (cfg : FileConfig) : Prop := cfg.testMode = .read ∨ cfg.testMode = .rndRead

/-- What a data request does to the variables of the rounds. -/
structure DataStep (cfg : FileConfig) (st : GeneratorState) (request : FileRequest)
    (after : GeneratorState) : Prop where
  data : isData request = true
  writes : request.operation = .write → ¬ ReadOnly cfg
  performed : after.reqPerformed = (st.reqPerformed + 1) % 2 ^ 32
  dirty : after.isDirty = if request.operation = .write then true else st.isDirty
  fsynced : after.fsyncedFile = st.fsyncedFile

theorem fsync_request_of : (fsyncRequest cfg st).1 = fsyncOf st.fsyncedFile := by
  simp only [fsyncRequest]
  split <;> rfl

theorem seq_step (notDue : ¬ FsyncDue cfg st) :
    DataStep cfg st (fileGetSeqRequest cfg st).1 (fileGetSeqRequest cfg st).2 := by
  have request := (seq_data notDue).1
  have operation : (fileGetSeqRequest cfg st).1.operation = seqOperation cfg :=
    congrArg FileRequest.operation request
  have fsynced := (seq_data notDue).2.2
  unfold FsyncDue seqOperation at notDue
  constructor
  case data =>
    rw [request]
    exact seq_operation_data _ _
  case writes =>
    rw [operation, seqOperation]
    rintro write (only | only)
    · simp [only] at write
    · simp [only] at write
  case performed => simp only [fileGetSeqRequest, if_neg notDue]
  case dirty =>
    rw [operation]
    simp only [fileGetSeqRequest, if_neg notDue, seqOperation]
    rfl
  case fsynced => exact fsynced

theorem data_request_step (tid : Nat) (operation : FileOp) (draws : List Draw)
    (data : operation = .read ∨ operation = .write) (writes : operation = .write → ¬ ReadOnly cfg)
    (given : dataRequest cfg st tid operation draws = .request request after) :
    DataStep cfg st request after := by
  obtain ⟨rfl, draw, _, drawn⟩ := data_request_made cfg st after tid operation draws request given
  have same := drawn_operation _ _ _ _ drawn
  constructor
  case data => simpa [isData, same] using data
  case writes => exact same ▸ writes
  case performed => rfl
  case dirty => rw [same, afterData]
  case fsynced => rfl

theorem rnd_operation_writes (reads writes : Nat) (write : rndOperation cfg reads writes = .write) :
    ¬ ReadOnly cfg := by
  rintro (only | only)
  · simp [rndOperation, only] at write
  · simp [rndOperation, only] at write

/-- Every request is the next one of a round that is due, or a data request. -/
theorem next_event_step (tid reads writes : Nat) (draws : List Draw)
    (quiet : ReadOnly cfg → st.isDirty = false)
    (given : fileNextEvent cfg st tid reads writes draws = .request request after) :
    RoundDue cfg st ∧ fsyncRequest cfg st = (request, after) ∨
      ¬ RoundDue cfg st ∧ DataStep cfg st request after := by
  unfold fileNextEvent at given
  split at given
  · rename_i sequential
    have same : RndOutcome.request (fileGetSeqRequest cfg st).1 (fileGetSeqRequest cfg st).2 =
        .request request after := given
    obtain ⟨rfl, rfl⟩ := RndOutcome.request.inj same
    by_cases due : FsyncDue cfg st
    · refine Or.inl ⟨⟨due.1, due.2.2⟩, ?_⟩
      rw [seq_fsync due]
    · refine Or.inr ⟨fun round => ?_, seq_step due⟩
      rcases sequential with write | rewrite_ | read
      · exact due ⟨round.1, by simp [seqOperation, write], round.2⟩
      · exact due ⟨round.1, by simp [seqOperation, rewrite_], round.2⟩
      · rw [RoundDue, quiet (Or.inl read)] at round
        cases round.2.1
  · unfold fileGetRndRequest at given
    split at given
    · rename_i due
      obtain ⟨rfl, rfl⟩ := RndOutcome.request.inj given
      exact Or.inl ⟨due, rfl⟩
    · rename_i notDue
      exact Or.inr ⟨notDue, data_request_step tid _ draws (rnd_operation_data cfg reads writes)
        (rnd_operation_writes reads writes) given⟩

end Calls

/-! What every step keeps. -/
section Invariant
variable {cfg : FileConfig} {s t : State}

/-- With `fsynced_file` at `k`, the last `k` requests are the beginning of a round. -/
structure Tracked (cfg : FileConfig) (s : State) : Prop where
  performed : s.generator.reqPerformed = s.requests.countP isData
  dirty : s.generator.isDirty = true ↔ WriteSince cfg.sizes.numFiles s.requests
  within : s.generator.fsyncedFile < cfg.sizes.numFiles
  reach : s.generator.fsyncedFile ≤ s.requests.length
  inRound : 0 < s.generator.fsyncedFile → RoundDue cfg s.generator ∧
    Due cfg (s.requests.take (s.requests.length - s.generator.fsyncedFile))
  lastData : s.generator.fsyncedFile = 0 → s.generator.isDirty = true →
    ∃ request, s.requests.getLast? = some request ∧ isData request = true
  begun : ∀ start ≤ s.requests.length, Due cfg (s.requests.take start) →
    start + cfg.sizes.numFiles ≤ s.requests.length ∨
      start + s.generator.fsyncedFile = s.requests.length
  quiet : ReadOnly cfg → s.generator.isDirty = false
  kept : RoundsKept cfg s.requests

theorem due_here (tracked : Tracked cfg s) (due : RoundDue cfg s.generator) :
    Due cfg (s.requests.take (s.requests.length - s.generator.fsyncedFile)) := by
  by_cases first : s.generator.fsyncedFile = 0
  · rw [first, Nat.sub_zero, List.take_length]
    exact ⟨due.1, tracked.lastData first due.2.1, tracked.performed ▸ due.2.2,
      tracked.dirty.mp due.2.1⟩
  · exact (tracked.inRound (Nat.pos_of_ne_zero first)).2

theorem round_due (tracked : Tracked cfg s) (due : Due cfg s.requests) :
    RoundDue cfg s.generator :=
  ⟨due.often, tracked.dirty.mpr due.write, tracked.performed ▸ due.count⟩

/-- The requests since the start of the round, the new one among them. -/
theorem fsync_follows (tracked : Tracked cfg s) (start file : Nat)
    (due : Due cfg ((s.requests ++ [fsyncOf s.generator.fsyncedFile]).take start))
    (within : file < cfg.sizes.numFiles) (inside : start + file < s.requests.length + 1) :
    (s.requests ++ [fsyncOf s.generator.fsyncedFile])[start + file]? = some (fsyncOf file) := by
  have early : start ≤ s.requests.length := by omega
  rw [List.take_append_of_le_length early] at due
  by_cases old : start + file < s.requests.length
  · rw [List.getElem?_append_left old]
    exact tracked.kept.follows start due file within old
  · have last : start + file = s.requests.length := by omega
    rcases tracked.begun start early due with complete | here
    · omega
    · have same : s.generator.fsyncedFile = file := by omega
      rw [last, same, List.getElem?_concat_length]

theorem fsync_kept (tracked : Tracked cfg s) (due : RoundDue cfg s.generator) :
    RoundsKept cfg (s.requests ++ [fsyncOf s.generator.fsyncedFile]) := by
  constructor
  case follows =>
    intro start due file within inside
    rw [List.length_append, List.length_singleton] at inside
    exact fsync_follows tracked start file due within inside
  case belongs =>
    intro i request here fsync
    by_cases old : i < s.requests.length
    · rw [List.getElem?_append_left old] at here
      obtain ⟨start, before, behind, due⟩ := tracked.kept.belongs i request here fsync
      rw [← List.take_append_of_le_length (by omega)] at due
      exact ⟨start, before, behind, due⟩
    · have bound := (List.getElem?_eq_some_iff.mp here).1
      rw [List.length_append, List.length_singleton] at bound
      have within := tracked.within
      refine ⟨s.requests.length - s.generator.fsyncedFile, by omega, by omega, ?_⟩
      rw [List.take_append_of_le_length (Nat.sub_le _ _)]
      exact due_here tracked due
  case never =>
    rintro (read | read | never)
    · rw [RoundDue, tracked.quiet (Or.inl read)] at due
      cases due.2.1
    · rw [RoundDue, tracked.quiet (Or.inr read)] at due
      cases due.2.1
    · exact absurd never due.1

theorem not_due_behind_fsync (file : Nat) (requests : List FileRequest) :
    ¬ Due cfg (requests ++ [fsyncOf file]) := by
  intro due
  obtain ⟨request, here, data⟩ := due.last
  rw [List.getLast?_concat] at here
  rw [← Option.some.inj here, fsync_not_data] at data
  cases data

/-- No new round begins behind an fsync. -/
theorem begun_behind_fsync (tracked : Tracked cfg s) (file start : Nat)
    (within : start ≤ s.requests.length + 1)
    (due : Due cfg ((s.requests ++ [fsyncOf file]).take start)) :
    start + cfg.sizes.numFiles ≤ s.requests.length ∨
      start + s.generator.fsyncedFile = s.requests.length := by
  by_cases early : start ≤ s.requests.length
  · rw [List.take_append_of_le_length early] at due
    exact tracked.begun start early due
  · obtain rfl : start = s.requests.length + 1 := by omega
    rw [List.take_of_length_le (by simp)] at due
    exact absurd due (not_due_behind_fsync file s.requests)

theorem round_continues (tracked : Tracked cfg s) (due : RoundDue cfg s.generator)
    (more : s.generator.fsyncedFile + 1 < cfg.sizes.numFiles) :
    Tracked cfg {
      generator := { s.generator with fsyncedFile := s.generator.fsyncedFile + 1 }
      requests := s.requests ++ [fsyncOf s.generator.fsyncedFile] } := by
  have other : fsyncOf s.generator.fsyncedFile ≠ fsyncOf (cfg.sizes.numFiles - 1) := by
    intro same
    have files := congrArg FileRequest.fileId same
    simp only [fsyncOf] at files
    omega
  have reach := tracked.reach
  constructor
  case performed => simp [tracked.performed, fsync_not_data]
  case dirty =>
    rw [write_since_concat cfg.sizes.someFiles other, ← tracked.dirty]
    simp [fsyncOf]
  case within => exact more
  case reach => simpa using reach
  case inRound =>
    intro _
    refine ⟨due, ?_⟩
    -- the round began where it did before this `fsync`
    have back : s.requests.length + 1 - (s.generator.fsyncedFile + 1) =
        s.requests.length - s.generator.fsyncedFile := by omega
    simp only [List.length_append, List.length_singleton, back]
    rw [List.take_append_of_le_length (Nat.sub_le _ _)]
    exact due_here tracked due
  case lastData => exact fun first => absurd first (Nat.succ_ne_zero _)
  case begun =>
    intro start within due
    rw [List.length_append, List.length_singleton] at within ⊢
    rcases begun_behind_fsync tracked _ start within due with complete | here
    · exact Or.inl (by omega)
    · exact Or.inr (by simp only; omega)
  case quiet => exact tracked.quiet
  case kept => exact fsync_kept tracked due

theorem round_completes (tracked : Tracked cfg s) (due : RoundDue cfg s.generator)
    (last : s.generator.fsyncedFile + 1 = cfg.sizes.numFiles) :
    Tracked cfg {
      generator := { s.generator with fsyncedFile := 0, isDirty := false }
      requests := s.requests ++ [fsyncOf s.generator.fsyncedFile] } := by
  have reach := tracked.reach
  have complete : RoundAt cfg.sizes.numFiles (s.requests ++ [fsyncOf s.generator.fsyncedFile])
      (s.requests.length - s.generator.fsyncedFile) := by
    intro file within
    apply fsync_follows tracked _ file _ within (by omega)
    rw [List.take_append_of_le_length (Nat.sub_le _ _)]
    exact due_here tracked due
  constructor
  case performed => simp [tracked.performed, fsync_not_data]
  case dirty =>
    have none_ := round_ends_writes _ complete (by simp; omega)
    simp [none_]
  case within => exact cfg.sizes.someFiles
  case reach => exact Nat.zero_le _
  case inRound => exact fun later => absurd later (Nat.lt_irrefl 0)
  case lastData => exact fun _ dirty => by cases dirty
  case begun =>
    intro start within due
    rw [List.length_append, List.length_singleton] at within ⊢
    rcases begun_behind_fsync tracked _ start within due with complete | here
    · exact Or.inl (by omega)
    · exact Or.inl (by omega)
  case quiet => exact fun _ => rfl
  case kept => exact fsync_kept tracked due

/-- Outside a round that is due, all rounds begun are complete. -/
theorem rounds_complete (tracked : Tracked cfg s) (notDue : ¬ RoundDue cfg s.generator)
    (start : Nat) (early : start ≤ s.requests.length) (due : Due cfg (s.requests.take start)) :
    start + cfg.sizes.numFiles ≤ s.requests.length := by
  have outside : s.generator.fsyncedFile = 0 := by
    by_contra inside
    exact notDue (tracked.inRound (Nat.pos_of_ne_zero inside)).1
  rcases tracked.begun start early due with complete | here
  · exact complete
  · rw [outside, Nat.add_zero] at here
    rw [here, List.take_length] at due
    exact absurd (round_due tracked due) notDue

theorem data_kept (tracked : Tracked cfg s) (notDue : ¬ RoundDue cfg s.generator)
    (request : FileRequest) (data : isData request = true) :
    RoundsKept cfg (s.requests ++ [request]) := by
  have notFsync : request.operation ≠ .fsync := by
    intro fsync
    simp [isData, fsync] at data
  constructor
  case follows =>
    intro start due file within inside
    rw [List.length_append, List.length_singleton] at inside
    have early : start ≤ s.requests.length := by omega
    rw [List.take_append_of_le_length early] at due
    have complete := rounds_complete tracked notDue start early due
    rw [List.getElem?_append_left (by omega)]
    exact tracked.kept.follows start due file within (by omega)
  case belongs =>
    intro i found here fsync
    by_cases old : i < s.requests.length
    · rw [List.getElem?_append_left old] at here
      obtain ⟨start, before, behind, due⟩ := tracked.kept.belongs i found here fsync
      rw [← List.take_append_of_le_length (by omega)] at due
      exact ⟨start, before, behind, due⟩
    · have bound := (List.getElem?_eq_some_iff.mp here).1
      rw [List.length_append, List.length_singleton] at bound
      obtain rfl : i = s.requests.length := by omega
      rw [List.getElem?_concat_length] at here
      exact absurd (Option.some.inj here ▸ fsync) notFsync
  case never =>
    intro never found member
    rcases List.mem_append.mp member with old | new
    · exact tracked.kept.never never found old
    · exact List.mem_singleton.mp new ▸ notFsync

theorem data_tracked (tracked : Tracked cfg s) (notDue : ¬ RoundDue cfg s.generator)
    (request : FileRequest) (after : GeneratorState)
    (moved : DataStep cfg s.generator request after)
    (few : (s.requests ++ [request]).countP isData < 2 ^ 32) :
    Tracked cfg { generator := after, requests := s.requests ++ [request] } := by
  have outside : s.generator.fsyncedFile = 0 := by
    by_contra inside
    exact notDue (tracked.inRound (Nat.pos_of_ne_zero inside)).1
  have other : request ≠ fsyncOf (cfg.sizes.numFiles - 1) := by
    intro same
    have data := moved.data
    rw [same, fsync_not_data] at data
    cases data
  have count : (s.requests ++ [request]).countP isData = s.requests.countP isData + 1 := by
    simp [moved.data]
  have fsynced := moved.fsynced.trans outside
  constructor
  case performed =>
    simp only [moved.performed, tracked.performed, count]
    omega
  case dirty =>
    rw [write_since_concat cfg.sizes.someFiles other, ← tracked.dirty, moved.dirty]
    by_cases write : request.operation = .write
    · simp [write]
    · simp [write]
  case within => exact fsynced ▸ cfg.sizes.someFiles
  case reach => simp [fsynced]
  case inRound => simp [fsynced]
  case lastData => exact fun _ _ => ⟨request, List.getLast?_concat, moved.data⟩
  case begun =>
    intro start within due
    rw [List.length_append, List.length_singleton] at within ⊢
    -- a round due at an earlier place is complete, as none is due now
    by_cases early : start ≤ s.requests.length
    · rw [List.take_append_of_le_length early] at due
      have complete := rounds_complete tracked notDue start early due
      exact Or.inl (by omega)
    · exact Or.inr (by simp only [fsynced]; omega)
  case quiet =>
    intro readOnly
    have read : request.operation ≠ .write := fun write => moved.writes write readOnly
    rw [moved.dirty, if_neg read, tracked.quiet readOnly]
  case kept => exact data_kept tracked notDue request moved.data

theorem step_tracked (call : Call)
    (tracked : s.requests.countP isData < 2 ^ 32 → Tracked cfg s)
    (taken : step cfg s call = some t) (few : t.requests.countP isData < 2 ^ 32) :
    Tracked cfg t := by
  unfold step at taken
  split at taken
  case h_1 request after given =>
    obtain rfl := Option.some.inj taken
    have here := tracked (by
      rw [List.countP_append] at few
      omega)
    rcases next_event_step _ _ _ _ here.quiet given with ⟨due, round⟩ | ⟨notDue, moved⟩
    · have files := cfg.sizes.filesUnsigned
      have within := here.within
      have small : s.generator.fsyncedFile + 1 < 2 ^ 32 := by omega
      simp only [fsyncRequest, Nat.mod_eq_of_lt small] at round
      split at round
      · rename_i last
        obtain ⟨rfl, rfl⟩ := Prod.mk.inj round
        exact round_completes here due last
      · obtain ⟨rfl, rfl⟩ := Prod.mk.inj round
        exact round_continues here due (by omega)
    · exact data_tracked here notDue request after moved few
  case h_2 | h_3 => cases taken

theorem not_due_nil (length : Nat) : ¬ Due cfg (([] : List FileRequest).take length) := by
  intro due
  obtain ⟨request, here, _⟩ := due.last
  rw [List.take_nil] at here
  cases here

theorem start_tracked (perThread : Nat → Nat × Int) : Tracked cfg (start perThread) := by
  constructor
  case performed => rfl
  case dirty => simp [start, initVars, WriteSince]
  case within => exact cfg.sizes.someFiles
  case reach => exact Nat.le_refl 0
  case inRound => exact fun later => absurd later (Nat.lt_irrefl 0)
  case lastData => exact fun _ dirty => by cases dirty
  case begun =>
    intro start _ due
    exact absurd due (not_due_nil start)
  case quiet => exact fun _ => rfl
  case kept =>
    constructor
    · intro start due
      exact absurd due (not_due_nil start)
    · intro i request here
      cases here
    · exact fun _ request member => absurd member List.not_mem_nil

end Invariant

/-- Along every run, as long as the counter has not wrapped around. -/
theorem fsync_rounds_kept (cfg : FileConfig) (perThread : Nat → Nat × Int) (calls : List Call) :
    Always (step cfg) (fun s => s.requests.countP isData < 2 ^ 32 → RoundsKept cfg s.requests)
      (start perThread) calls :=
  always_mono (fun _ tracked few => (tracked few).kept) _ calls
    (invariant_keeps (fun _ call _ tracked taken few => step_tracked call tracked taken few) _ calls
      fun _ => start_tracked perThread)

/-- Two files of one block, with a round after every second write. -/
theorem two_files_unsigned : 2 < 2 ^ 32 := by decide

theorem two_bytes_signed : 2 < 2 ^ 63 := by decide

def everySecond : FileConfig :=
  { tailConfig with
    sizes := { tailConfig.sizes with
      numFiles := 2, totalSize := 2, someFiles := Nat.two_pos
      filesUnsigned := two_files_unsigned, someBytes := Nat.two_pos
      totalSigned := two_bytes_signed }
    testMode := .rewrite, fsyncFreq := 2 }

example : (run (step everySecond) (start fun _ => (0, 0))
    (List.replicate 5 ⟨0, 0, 0, []⟩)).map State.requests =
      some [⟨.write, 0, 0, 1⟩, ⟨.write, 1, 0, 1⟩, fsyncOf 0, fsyncOf 1, ⟨.write, 0, 0, 1⟩] := by
  decide +kernel

end PteSysbench.FsyncRounds
