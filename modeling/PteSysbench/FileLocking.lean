import PteSysbench.LockDiscipline
import PteSysbench.SequentialTiles

/-!
The two request generators statement by statement, run by all workers at once. Only
`file_get_seq_request` locks `exec_mutex`; both unlock it. Generator state that one
statement uses is read or written in one step.
-/

namespace PteSysbench.FileLocking

open ActionSystem FileRequests SequentialTiles LockDiscipline

/-- Where a worker is in `file_next_event`. -/
inductive Place where
  | outside (last : Option FileRequest)
  -- file_get_seq_request
  | seqLock
  | seqBranch
  | seqCount
  | seqDirty
  | seqRewind
  | seqEmit
  | seqAdvance (request : FileRequest)
  | seqScroll (request : FileRequest)
  -- the fsync branch, which is the same in both
  | fsyncTake
  | fsyncAdvance (request : FileRequest)
  | fsyncWrap (request : FileRequest)
  -- file_get_rnd_request
  | checkDirty (operation : FileOp)
  | checkCount (operation : FileOp)
  | draw (operation : FileOp)
  | compare (request : FileRequest) (i : Nat)
  | record (request : FileRequest)
  | count (request : FileRequest)
  | dirty (request : FileRequest)
  | unlock (request : FileRequest)

/-- The counters of the worker, and a value of `sb_rand_uniform_double`. -/
structure Input where
  reads : Nat
  writes : Nat
  draw : Draw

/-- `recorded` is history: the worker has recorded a block. Before that its record is what
malloc returned. -/
structure Shared (n : Nat) where
  generator : GeneratorState
  recorded : Fin n → Bool

def Sequential (cfg : FileConfig) : Prop :=
  cfg.testMode = .write ∨ cfg.testMode = .rewrite ∨ cfg.testMode = .read

instance (cfg : FileConfig) : Decidable (Sequential cfg) := inferInstanceAs (Decidable (_ ∨ _))

def fsyncCode (cfg : FileConfig) {n : Nat} (shared : Shared n) :
    Place → Option (Instruction Place (Shared n))
  | .fsyncTake =>
      some (.read (.fsyncAdvance
        { operation := .fsync, fileId := shared.generator.fsyncedFile, pos := 0, size := 0 }))
  | .fsyncAdvance request =>
      some (.update (.fsyncWrap request) { shared with
        generator := { shared.generator with
          fsyncedFile := (shared.generator.fsyncedFile + 1) % 2 ^ 32 } })
  | .fsyncWrap request =>
      if shared.generator.fsyncedFile = cfg.sizes.numFiles then
        some (.update (.unlock request) { shared with
          generator := { shared.generator with fsyncedFile := 0, isDirty := false } })
      else some (.read (.unlock request))
  | _ => none

def seqCode (cfg : FileConfig) {n : Nat} (shared : Shared n) :
    Place → Option (Instruction Place (Shared n))
  | .seqLock => some (.lock .seqBranch)
  | .seqBranch =>
      some (.read (if FsyncDue cfg shared.generator then .fsyncTake else .seqCount))
  | .seqCount =>
      some (.update .seqDirty { shared with
        generator := { shared.generator with
          reqPerformed := (shared.generator.reqPerformed + 1) % 2 ^ 32 } })
  | .seqDirty =>
      if seqOperation cfg = .write then
        some (.update .seqRewind { shared with
          generator := { shared.generator with isDirty := true } })
      else some (.read .seqRewind)
  | .seqRewind =>
      if shared.generator.currentFile = cfg.sizes.numFiles then
        some (.update .seqEmit { shared with
          generator := { shared.generator with position := 0, currentFile := 0 } })
      else some (.read .seqEmit)
  | .seqEmit =>
      some (.read (.seqAdvance
        (requestAt cfg shared.generator.currentFile shared.generator.position)))
  | .seqAdvance request =>
      some (.update (.seqScroll request) { shared with
        generator := { shared.generator with
          position := shared.generator.position + request.size } })
  | .seqScroll request =>
      if shared.generator.position = cfg.fileSize then
        some (.update (.unlock request) { shared with
          generator := { shared.generator with
            currentFile := (shared.generator.currentFile + 1) % 2 ^ 32
            position := 0 } })
      else some (.read (.unlock request))
  | _ => none

def rndCode (cfg : FileConfig) (w : Fin cfg.threads) (draw : Draw) (shared : Shared cfg.threads) :
    Place → Option (Instruction Place (Shared cfg.threads))
  | .checkDirty operation =>
      some (.read (if cfg.fsyncFreq ≠ 0 ∧ shared.generator.isDirty then .checkCount operation
        else .draw operation))
  | .checkCount operation =>
      some (.read (if shared.generator.reqPerformed % cfg.fsyncFreq = 0 then .fsyncTake
        else .draw operation))
  -- an empty file: the division by zero ends the process
  | .draw operation =>
      (drawnRequest cfg.sizes operation draw).map fun request =>
        .read (if cfg.validate then .compare request 0 else .record request)
  | .compare request i =>
      if i < cfg.threads then
        some (.read (if i != w && shared.generator.perThread i == (request.fileId, request.pos)
          then .draw request.operation else .compare request (i + 1)))
      else some (.read (.record request))
  | .record request =>
      some (.update (.count request) {
        generator := { shared.generator with
          perThread := fun i =>
            if i = w then (request.fileId, request.pos) else shared.generator.perThread i }
        recorded := Function.update shared.recorded w true })
  | .count request =>
      some (.update (.dirty request) { shared with
        generator := { shared.generator with
          reqPerformed := (shared.generator.reqPerformed + 1) % 2 ^ 32 } })
  | .dirty request =>
      if request.operation = .write then
        some (.update (.unlock request) { shared with
          generator := { shared.generator with isDirty := true } })
      else some (.read (.unlock request))
  | _ => none

def code (cfg : FileConfig) (w : Fin cfg.threads) (input : Input) (shared : Shared cfg.threads)
    (place : Place) : Option (Instruction Place (Shared cfg.threads)) :=
  match place with
  | .outside _ =>
      some (.read (if Sequential cfg then .seqLock
        else .checkDirty (rndOperation cfg input.reads input.writes)))
  | .unlock request => some (.unlock (.outside (some request)))
  | .fsyncTake | .fsyncAdvance _ | .fsyncWrap _ => fsyncCode cfg shared place
  | .checkDirty _ | .checkCount _ | .draw _ | .compare _ _ | .record _ | .count _ | .dirty _ =>
      rndCode cfg w input.draw shared place
  | _ => seqCode cfg shared place

abbrev FileState (cfg : FileConfig) := State (Fin cfg.threads) Place (Shared cfg.threads)

def start (cfg : FileConfig) (perThread : Nat → Nat × Int) : FileState cfg :=
  { place := fun _ => .outside none
    shared := { generator := initVars perThread, recorded := fun _ => false }
    mutex := none, strayUnlock := false, strayUpdate := false }

/-- No two workers have the same block as their current one. -/
def BlocksApart {n : Nat} (shared : Shared n) : Prop :=
  ∀ v w : Fin n, v ≠ w → shared.recorded v = true → shared.recorded w = true →
    shared.generator.perThread v ≠ shared.generator.perThread w

structure LockingKept (cfg : FileConfig) (s : FileState cfg) : Prop where
  unlocks : s.strayUnlock = false
  updates : s.strayUpdate = false
  apart : cfg.validate = true → BlocksApart s.shared

/-! The sequential generator holds the mutex from its first statement to its last. -/
section Sequential
variable {cfg : FileConfig}

def holds : Place → Bool
  | .outside _ | .seqLock => false
  | _ => true

/-- The places of the sequential generator. -/
def inSequence : Place → Prop
  | .checkDirty _ | .checkCount _ | .draw _ | .compare _ _ | .record _ | .count _
  | .dirty _ => False
  | _ => True

def NoneRecorded {n : Nat} (shared : Shared n) : Prop := ∀ w, shared.recorded w = false

theorem seq_bracketed (sequential : Sequential cfg) :
    Bracketed (code cfg) holds inSequence NoneRecorded := by
  intro w input shared place instruction within quiet asked
  cases place with
  | checkDirty | checkCount | draw | compare | record | count | dirty => exact within.elim
  | outside last =>
      simp only [code, sequential, ↓reduceIte, Option.some.injEq] at asked
      exact asked ▸ ⟨rfl, trivial⟩
  | seqLock => exact Option.some.inj asked ▸ ⟨rfl, rfl, trivial⟩
  | seqBranch =>
      obtain rfl := Option.some.inj asked
      split <;> exact ⟨rfl, trivial⟩
  | seqEmit | fsyncTake => exact Option.some.inj asked ▸ ⟨rfl, trivial⟩
  | seqCount | seqAdvance | fsyncAdvance =>
      exact Option.some.inj asked ▸ ⟨rfl, rfl, trivial, quiet⟩
  | seqDirty | seqRewind | seqScroll | fsyncWrap =>
      simp only [code, seqCode, fsyncCode] at asked
      split at asked
      · exact Option.some.inj asked ▸ ⟨rfl, rfl, trivial, quiet⟩
      · exact Option.some.inj asked ▸ ⟨rfl, trivial⟩
  | unlock request => exact Option.some.inj asked ▸ ⟨rfl, rfl, trivial⟩

theorem sequential_kept (sequential : Sequential cfg) (perThread : Nat → Nat × Int)
    (schedule : List (Fin cfg.threads × Input)) :
    Always (step (code cfg)) (LockingKept cfg) (start cfg perThread) schedule := by
  apply always_mono _ _ schedule (bracketed_exclusive (seq_bracketed sequential) _ _ schedule)
  · intro s exclusive
    refine ⟨exclusive.unlocks, exclusive.updates, fun _ v w _ recorded => ?_⟩
    rw [exclusive.good v] at recorded
    cases recorded
  · exact ⟨fun _ => trivial, fun w => by simp [start, holds], fun _ => rfl, rfl, rfl⟩

end Sequential

/-! With empty files the random generator comes to no statement of interest. -/
section Empty
variable {cfg : FileConfig}

def beforeDivision : Place → Prop
  | .outside _ | .checkDirty _ | .draw _ => True
  | _ => False

def Untouched {n : Nat} (shared : Shared n) : Prop :=
  shared.generator.isDirty = false ∧ NoneRecorded shared

theorem empty_bracketed (random : ¬ Sequential cfg) (empty : cfg.fileSize = 0) :
    Bracketed (code cfg) (fun _ => false) beforeDivision Untouched := by
  intro w input shared place instruction within clean asked
  cases place with
  | outside last =>
      simp only [code, random, ↓reduceIte, Option.some.injEq] at asked
      exact asked ▸ ⟨rfl, trivial⟩
  | checkDirty operation =>
      simp [code, rndCode, clean.1] at asked
      exact asked ▸ ⟨rfl, trivial⟩
  | draw operation =>
      have none_ : drawnRequest cfg.sizes operation input.draw = none := if_pos empty
      simp [code, rndCode, none_] at asked
  | _ => exact within.elim

theorem empty_kept (random : ¬ Sequential cfg) (empty : cfg.fileSize = 0)
    (perThread : Nat → Nat × Int) (schedule : List (Fin cfg.threads × Input)) :
    Always (step (code cfg)) (LockingKept cfg) (start cfg perThread) schedule := by
  apply always_mono _ _ schedule
    (bracketed_exclusive (empty_bracketed random empty) _ _ schedule)
  · intro s exclusive
    refine ⟨exclusive.unlocks, exclusive.updates, fun _ v w _ recorded => ?_⟩
    rw [exclusive.good.2 v] at recorded
    cases recorded
  · exact ⟨fun _ => trivial, fun w => by simp [start], ⟨rfl, fun _ => rfl⟩, rfl, rfl⟩

end Empty

/-! A call that runs alone gives what the whole generator computes. -/
section Calls
variable {cfg : FileConfig} {w : Fin cfg.threads} {s : FileState cfg}

def AtUnlock (w : Fin cfg.threads) (request : FileRequest) (after : GeneratorState)
    (mutex : Option (Fin cfg.threads)) (t : FileState cfg) : Prop :=
  t.place w = .unlock request ∧ t.shared.generator = after ∧ t.mutex = mutex

theorem fsync_alone (input : Input) (here : s.place w = .fsyncTake) :
    Alone (code cfg) w (AtUnlock w (fsyncRequest cfg s.shared.generator).1
      (fsyncRequest cfg s.shared.generator).2 s.mutex) s := by
  refine ⟨[input, input, input], ?_⟩
  by_cases last : (s.shared.generator.fsyncedFile + 1) % 2 ^ 32 = cfg.sizes.numFiles <;>
    simp only [Nat.reducePow] at last
  · simp [run, step, here, code, fsyncCode, perform, last, AtUnlock, fsyncRequest]
  · simp [run, step, here, code, fsyncCode, perform, last, AtUnlock, fsyncRequest]

theorem record_alone (input : Input) (request : FileRequest) (here : s.place w = .record request) :
    Alone (code cfg) w (AtUnlock w request {
      s.shared.generator with
      perThread := fun i =>
        if i = w then (request.fileId, request.pos) else s.shared.generator.perThread i
      reqPerformed := (s.shared.generator.reqPerformed + 1) % 2 ^ 32
      isDirty := if request.operation = .write then true else s.shared.generator.isDirty }
      s.mutex) s := by
  refine ⟨[input, input, input], ?_⟩
  by_cases write : request.operation = .write
  · simp [run, step, here, code, rndCode, perform, write, AtUnlock]
  · simp [run, step, here, code, rndCode, perform, write, AtUnlock]

def At (w : Fin cfg.threads) (place : Place) (shared : Shared cfg.threads)
    (mutex : Option (Fin cfg.threads)) (t : FileState cfg) : Prop :=
  t.place w = place ∧ t.shared = shared ∧ t.mutex = mutex

/-- Another worker has recorded the block of the request. -/
def takenBy (w : Fin cfg.threads) (shared : Shared cfg.threads) (request : FileRequest)
    (i : Nat) : Bool :=
  i != w && (shared.generator.perThread i == (request.fileId, request.pos))

theorem compare_alone (input : Input) (request : FileRequest) (left i : Nat) (s : FileState cfg)
    (bound : i + left = cfg.threads) (here : s.place w = .compare request i) :
    Alone (code cfg) w (At w (if (List.range' i left).any (takenBy w s.shared request)
      then .draw request.operation else .record request) s.shared s.mutex) s := by
  induction left generalizing i s with
  | zero =>
      have done : ¬ i < cfg.threads := by omega
      apply alone_read s input (.record request)
      · simp [here, code, rndCode, done]
      · exact alone_here _ ⟨by simp, rfl, rfl⟩
  | succ left ih =>
      have more : i < cfg.threads := by omega
      cases taken : takenBy w s.shared request i with
      | true =>
          apply alone_read s input (.draw request.operation)
          · rw [takenBy] at taken
            simp [here, code, rndCode, more, taken]
          · exact alone_here _ ⟨by simp [List.range'_succ, taken], rfl, rfl⟩
      | false =>
          apply alone_read s input (.compare request (i + 1))
          · rw [takenBy] at taken
            simp [here, code, rndCode, more, taken]
          · rw [List.range'_succ, List.any_cons, taken, Bool.false_or]
            exact ih (i + 1) (s.goto w (.compare request (i + 1))) (by omega) (by simp)

/-- A draw, with the search for its block in the records of the others. -/
theorem draw_alone (input : Input) (operation : FileOp) (request : FileRequest)
    (s : FileState cfg) (here : s.place w = .draw operation)
    (drawn : drawnRequest cfg.sizes operation input.draw = some request) :
    Alone (code cfg) w (At w (if inUse cfg s.shared.generator w request then .draw operation
      else .record request) s.shared s.mutex) s := by
  cases checked : cfg.validate with
  | false =>
      apply alone_read s input (.record request)
      · simp [here, code, rndCode, drawn, checked]
      · exact alone_here _ ⟨by simp [inUse, checked], rfl, rfl⟩
  | true =>
      apply alone_read s input (.compare request 0)
      · simp [here, code, rndCode, drawn, checked]
      · have search := compare_alone (w := w) input request cfg.threads 0
          (s.goto w (.compare request 0)) (Nat.zero_add _) (by simp)
        rw [drawn_operation _ _ _ _ drawn] at search
        simpa [inUse, checked, List.range_eq_range', takenBy] using search

theorem draws_alone (reads writes : Nat) (operation : FileOp) (draws : List Draw)
    (request : FileRequest) (after : GeneratorState) (s : FileState cfg)
    (here : s.place w = .draw operation)
    (given : dataRequest cfg s.shared.generator w operation draws = .request request after) :
    Alone (code cfg) w (AtUnlock w request after s.mutex) s := by
  induction draws generalizing s with
  | nil => cases given
  | cons draw rest ih =>
      unfold dataRequest at given
      cases drawn : drawnRequest cfg.sizes operation draw with
      | none =>
          rw [drawn] at given
          cases given
      | some found =>
          simp only [drawn] at given
          apply alone_trans s _ (draw_alone ⟨reads, writes, draw⟩ operation found s here drawn)
          rintro t ⟨place, shared, mutex⟩
          rw [← mutex]
          rw [← shared] at given place
          split at given
          · rename_i taken
            rw [if_pos taken] at place
            exact ih t place given
          · rename_i free
            rw [if_neg free] at place
            obtain ⟨rfl, rfl⟩ := RndOutcome.request.inj given
            have recorded := record_alone ⟨reads, writes, draw⟩ found place
            rwa [drawn_operation _ _ _ _ drawn] at recorded

theorem unlock_alone (input : Input) (request : FileRequest) (s : FileState cfg)
    (here : s.place w = .unlock request) :
    Alone (code cfg) w (fun t => t.place w = .outside (some request) ∧ t.shared = s.shared ∧
      t.mutex = none ∧ t.strayUnlock = (s.strayUnlock || s.mutex != some w)) s := by
  refine ⟨[input], ?_⟩
  simp [run, step, here, code, perform]

/-- The random generator's unlock is stray when nobody has locked for the caller. -/
theorem rnd_call_alone (random : ¬ Sequential cfg) (reads writes : Nat) (draw : Draw)
    (draws : List Draw) (request : FileRequest) (after : GeneratorState) (s : FileState cfg)
    (last : Option FileRequest) (here : s.place w = .outside last) (unowned : s.mutex ≠ some w)
    (given : fileGetRndRequest cfg s.shared.generator w reads writes draws =
      .request request after) :
    Alone (code cfg) w (fun t => t.place w = .outside (some request) ∧
      t.shared.generator = after ∧ t.strayUnlock = true) s := by
  apply alone_trans s (AtUnlock w request after s.mutex)
  · apply alone_read s ⟨reads, writes, draw⟩ (.checkDirty (rndOperation cfg reads writes))
    · simp [here, code, random]
    unfold fileGetRndRequest at given
    by_cases dirty : cfg.fsyncFreq ≠ 0 ∧ s.shared.generator.isDirty = true
    · apply alone_read _ ⟨reads, writes, draw⟩ (.checkCount (rndOperation cfg reads writes))
      · simp [code, rndCode, dirty]
      by_cases multiple : s.shared.generator.reqPerformed % cfg.fsyncFreq = 0
      · rw [if_pos ⟨dirty.1, dirty.2, multiple⟩] at given
        obtain ⟨rfl, rfl⟩ := RndOutcome.request.inj given
        apply alone_read _ ⟨reads, writes, draw⟩ .fsyncTake
        · simp [code, rndCode, multiple]
        · exact fsync_alone ⟨reads, writes, draw⟩ (State.goto_place _ _ _)
      · rw [if_neg fun due => multiple due.2.2] at given
        apply alone_read _ ⟨reads, writes, draw⟩ (.draw (rndOperation cfg reads writes))
        · simp [code, rndCode, multiple]
        · exact draws_alone reads writes _ draws request after _ (State.goto_place _ _ _) given
    · rw [if_neg fun due => dirty ⟨due.1, due.2.1⟩] at given
      apply alone_read _ ⟨reads, writes, draw⟩ (.draw (rndOperation cfg reads writes))
      · rw [State.goto_place]
        exact congrArg (fun next => some (Instruction.read next)) (if_neg dirty)
      · exact draws_alone reads writes _ draws request after _ (State.goto_place _ _ _) given
  · rintro t ⟨place, rfl, mutex⟩
    apply alone_trans t _ (unlock_alone ⟨reads, writes, draw⟩ request t place)
    rintro u ⟨left, shared, _, stray⟩
    refine alone_here u ⟨left, by rw [shared], ?_⟩
    rw [stray, mutex]
    simp [unowned]

/-- Up to the first statement behind the test for an fsync. -/
theorem seq_enter_alone (sequential : Sequential cfg) (input : Input) (s : FileState cfg)
    (last : Option FileRequest) (here : s.place w = .outside last) (free : s.mutex = none) :
    Alone (code cfg) w (At w (if FsyncDue cfg s.shared.generator then .fsyncTake else .seqCount)
      s.shared (some w)) s := by
  refine ⟨[input, input, input], ?_⟩
  simp [run, step, here, code, seqCode, perform, sequential, free, At]

/-- The counters and the rewind. -/
def atEmit (cfg : FileConfig) (st : GeneratorState) : GeneratorState :=
  { st with
    reqPerformed := (st.reqPerformed + 1) % 2 ^ 32
    isDirty := if seqOperation cfg = .write then true else st.isDirty
    currentFile := (SequentialTiles.place cfg st).1
    position := (SequentialTiles.place cfg st).2 }

def atScroll (cfg : FileConfig) (st : GeneratorState) : GeneratorState :=
  let next := st.position + (requestAt cfg st.currentFile st.position).size
  { st with
    currentFile := if next = cfg.fileSize then (st.currentFile + 1) % 2 ^ 32 else st.currentFile
    position := if next = cfg.fileSize then 0 else next }

theorem seq_data_state (st : GeneratorState) (notDue : ¬ FsyncDue cfg st) :
    fileGetSeqRequest cfg st = (requestAt cfg (atEmit cfg st).currentFile (atEmit cfg st).position,
      atScroll cfg (atEmit cfg st)) := by
  unfold FsyncDue seqOperation at notDue
  by_cases rewound : st.currentFile = cfg.sizes.numFiles
  · simp only [fileGetSeqRequest, if_neg notDue, rewound, decide_true, ↓reduceIte, atEmit,
      atScroll, SequentialTiles.place, requestAt, seqOperation]
    rfl
  · simp only [fileGetSeqRequest, if_neg notDue, rewound, decide_false, Bool.false_eq_true,
      ↓reduceIte, atEmit, atScroll, SequentialTiles.place, requestAt, seqOperation]
    rfl

theorem seq_front_alone (input : Input) (s : FileState cfg) (here : s.place w = .seqCount) :
    Alone (code cfg) w (At w .seqEmit { s.shared with generator := atEmit cfg s.shared.generator }
      s.mutex) s := by
  refine ⟨[input, input, input], ?_⟩
  by_cases write : seqOperation cfg = .write
  · by_cases rewound : s.shared.generator.currentFile = cfg.sizes.numFiles
    · simp [run, step, here, code, seqCode, perform, write, rewound, At, atEmit,
        SequentialTiles.place]
    · simp [run, step, here, code, seqCode, perform, write, rewound, At, atEmit,
        SequentialTiles.place]
  · by_cases rewound : s.shared.generator.currentFile = cfg.sizes.numFiles
    · simp [run, step, here, code, seqCode, perform, write, rewound, At, atEmit,
        SequentialTiles.place]
    · simp [run, step, here, code, seqCode, perform, write, rewound, At, atEmit,
        SequentialTiles.place]

theorem seq_back_alone (input : Input) (s : FileState cfg) (here : s.place w = .seqEmit) :
    Alone (code cfg) w (AtUnlock w
      (requestAt cfg s.shared.generator.currentFile s.shared.generator.position)
      (atScroll cfg s.shared.generator) s.mutex) s := by
  refine ⟨[input, input, input], ?_⟩
  by_cases last : s.shared.generator.position + (requestAt cfg s.shared.generator.currentFile
    s.shared.generator.position).size = cfg.fileSize
  · simp [run, step, here, code, seqCode, perform, last, AtUnlock, atScroll]
  · simp [run, step, here, code, seqCode, perform, last, AtUnlock, atScroll]

theorem seq_data_alone (input : Input) (s : FileState cfg) (here : s.place w = .seqCount)
    (notDue : ¬ FsyncDue cfg s.shared.generator) :
    Alone (code cfg) w (AtUnlock w (fileGetSeqRequest cfg s.shared.generator).1
      (fileGetSeqRequest cfg s.shared.generator).2 s.mutex) s := by
  apply alone_trans s _ (seq_front_alone input s here)
  rintro t ⟨place, shared, mutex⟩
  have back := seq_back_alone input t place
  rw [seq_data_state _ notDue]
  rwa [shared, mutex] at back

theorem seq_call_alone (sequential : Sequential cfg) (input : Input) (s : FileState cfg)
    (last : Option FileRequest) (here : s.place w = .outside last) (free : s.mutex = none) :
    Alone (code cfg) w (fun t =>
      t.place w = .outside (some (fileGetSeqRequest cfg s.shared.generator).1) ∧
      t.shared.generator = (fileGetSeqRequest cfg s.shared.generator).2 ∧
      t.mutex = none) s := by
  apply alone_trans s (AtUnlock w (fileGetSeqRequest cfg s.shared.generator).1
    (fileGetSeqRequest cfg s.shared.generator).2 (some w))
  · apply alone_trans s _ (seq_enter_alone sequential input s last here free)
    rintro t ⟨place, shared, mutex⟩
    rw [← shared, ← mutex]
    rw [← shared] at place
    by_cases due : FsyncDue cfg t.shared.generator
    · rw [if_pos due] at place
      rw [seq_fsync due]
      exact fsync_alone input place
    · rw [if_neg due] at place
      exact seq_data_alone input t place due
  · rintro t ⟨place, generator, _⟩
    apply alone_trans t _ (unlock_alone input _ t place)
    rintro u ⟨left, shared, free, _⟩
    exact alone_here u ⟨left, by rw [shared, generator], free⟩

end Calls

/-! Which configurations keep to the mutex. -/
section Kept
variable {cfg : FileConfig}

theorem idle_gives (cfg : FileConfig) (some_ : cfg.fileSize ≠ 0) (draw : Draw) :
    ∃ request after, fileGetRndRequest cfg idleState 0 0 0 [draw] = .request request after := by
  have drawn : ∃ request, drawnRequest cfg.sizes (rndOperation cfg 0 0) draw = some request ∧
      request.pos ≠ -1 := ⟨_, if_neg some_, by simp only; omega⟩
  obtain ⟨request, drawn, behind⟩ := drawn
  have free : inUse cfg idleState 0 request = false := by
    simp [inUse, idleState, initVars, Prod.ext_iff, behind.symm]
  rw [idle_request, data_request_free cfg _ 0 _ draw [] request drawn free]
  exact ⟨_, _, rfl⟩

theorem locking_kept_iff (cfg : FileConfig) (someThread : 0 < cfg.threads) :
    (∀ perThread schedule, Always (step (code cfg)) (LockingKept cfg) (start cfg perThread)
      schedule) ↔ Sequential cfg ∨ cfg.fileSize = 0 := by
  constructor
  · intro kept
    by_contra neither
    rw [not_or] at neither
    obtain ⟨random, some_⟩ := neither
    have zero : Draw := ⟨0, le_rfl, one_pos⟩
    obtain ⟨request, after, given⟩ := idle_gives cfg some_ zero
    obtain ⟨inputs, t, reached, _, _, stray⟩ := rnd_call_alone (w := ⟨0, someThread⟩) random 0 0
      zero [zero] request after (start cfg fun _ => (0, -1)) none rfl (by simp [start]) given
    have all := kept (fun _ => (0, -1)) (inputs.map fun input => (⟨0, someThread⟩, input))
    rw [← List.append_nil (inputs.map _)] at all
    have good := always_reached _ t _ [] all reached
    rw [good.unlocks] at stray
    cases stray
  · rintro (sequential | empty) perThread schedule
    · exact sequential_kept sequential perThread schedule
    · by_cases sequential : Sequential cfg
      · exact sequential_kept sequential perThread schedule
      · exact empty_kept sequential empty perThread schedule

theorem locking_kept_one_reader :
    (∀ perThread schedule, Always (step (code tailConfig)) (LockingKept tailConfig)
      (start tailConfig perThread) schedule) ↔ Sequential tailConfig ∨ tailConfig.fileSize = 0 :=
  locking_kept_iff tailConfig (by decide)

/-- `--file-test-mode=rndwr --validate --threads=2`. -/
def twoWriters : FileConfig :=
  { tailConfig with testMode := .rndWrite, validate := true, threads := 2 }

def firstBlock : Input := ⟨0, 0, ⟨0, le_rfl, one_pos⟩⟩

/-- Both have looked at the records before either has recorded its block. -/
def bothRecord (v w : Fin twoWriters.threads) : List (Fin twoWriters.threads × Input) :=
  List.replicate 6 (v, firstBlock) ++ List.replicate 6 (w, firstBlock) ++
    List.replicate 4 (v, firstBlock) ++ [(w, firstBlock)]

theorem same_block_recorded : ∃ t,
    run (step (code twoWriters)) (start twoWriters fun _ => (0, -1))
      (bothRecord ⟨0, Nat.zero_lt_two⟩ ⟨1, Nat.one_lt_two⟩) = some t ∧
    t.strayUnlock = true ∧ t.strayUpdate = true ∧ ¬ BlocksApart t.shared := by
  have observed : (run (step (code twoWriters)) (start twoWriters fun _ => (0, -1))
      (bothRecord ⟨0, Nat.zero_lt_two⟩ ⟨1, Nat.one_lt_two⟩)).map (fun t =>
        ([t.strayUnlock, t.strayUpdate, t.shared.recorded ⟨0, Nat.zero_lt_two⟩,
          t.shared.recorded ⟨1, Nat.one_lt_two⟩],
          [t.shared.generator.perThread 0, t.shared.generator.perThread 1])) =
      some ([true, true, true, true], [(0, 0), (0, 0)]) := by
    decide +kernel
  obtain ⟨t, reached, seen⟩ := Option.map_eq_some_iff.mp observed
  simp only [Prod.mk.injEq, List.cons.injEq, and_true] at seen
  obtain ⟨⟨unlock, update, first, second⟩, here, there⟩ := seen
  refine ⟨t, reached, unlock, update, fun apart => ?_⟩
  apply apart ⟨0, Nat.zero_lt_two⟩ ⟨1, Nat.one_lt_two⟩ _ first second (here.trans there.symm)
  exact fun same => absurd (congrArg Fin.val same) Nat.zero_ne_one

end Kept
end PteSysbench.FileLocking
