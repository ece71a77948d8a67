import PteSysbench.AsyncAccounting
import PteSysbench.FileLocking
import PteSysbench.FileValidation
import PteSysbench.FsyncRounds
import Mathlib.Algebra.Order.Archimedean.Basic

/-!
The buffer of a thread while its operations are asynchronous. `file_execute_event` fills
the buffer and validates it as if each operation were over when its call returns; the
kernel completes an operation at any time, and reads or writes the buffer then.
-/

namespace PteSysbench.AsyncBuffers

open ActionSystem FileRequests
open AsyncAccounting (AsyncConfig parseBacklog)
open FileValidation (ReadsData trailerLength)
open SequentialTiles (seqOperation FsyncDue requestAt afterRequest)

/-- What the buffer holds: the data of the READ with this number, or what
`file_fill_buffer` wrote. -/
inductive Content where
  | initial
  | filled
  | readBy (number : Nat)
  deriving DecidableEq

/-- An operation, by the number of its submission. -/
structure Oper where
  number : Nat
  operation : FileOp
  size : Int
  deriving DecidableEq

/-- An operation of no bytes uses no buffer. -/
def Oper.uses (oper : Oper) : Bool := decide (0 < oper.size)

/-- Where the thread is in `file_execute_event`. -/
inductive Place where
  | idle
  | prepared (request : FileRequest)
  | waiting (number : Nat) (request : FileRequest)
  | returned (number : Nat) (request : FileRequest)
  | crashed

/-- `inFlight` and `completed` are the kernel's. `overwritten`, that the buffer was written
while another operation that uses it was in flight, and `validated`, the READs with what the
buffer held, are history. -/
structure State where
  generator : GeneratorState
  place : Place
  nrequests : Nat
  inFlight : List Oper
  completed : List Oper
  submitted : Nat
  buffer : Content
  overwritten : Bool
  validated : List (Nat × Content)

/-- Below 12 bytes `len - 12` wraps around, and the fill or the check runs off the buffer.
A request's size is an `int`. -/
def runsOff (request : FileRequest) : Prop := 0 ≤ request.size ∧ request.size < trailerLength

instance (request : FileRequest) : Decidable (runsOff request) :=
  inferInstanceAs (Decidable (_ ∧ _))

/-- `file_fill_buffer`. -/
def fill (s : State) (request : FileRequest) : State :=
  { s with
    place := if runsOff request then .crashed else .prepared request
    buffer := .filled
    overwritten := s.overwritten || s.inFlight.any Oper.uses }

/-- `file_execute_event` up to `file_pread` or `file_pwrite`. An fsync is synchronous. -/
def prepare (cfg : FileConfig) (s : State) (request : FileRequest) : State :=
  match request.operation with
  | .read => { s with place := .prepared request }
  | .write => if cfg.validate then fill s request else { s with place := .prepared request }
  | .null | .fsync => s

/-- `file_pread` and `file_pwrite`, which wait at the backlog only. The kernel refuses a
negative count, and a failed call ends the thread. -/
def transfer (cfg : AsyncConfig) (s : State) (request : FileRequest) : Option State :=
  if request.size < 0 then none
  else some { s with
    inFlight := s.inFlight ++ [⟨s.submitted, request.operation, request.size⟩]
    submitted := s.submitted + 1
    nrequests := s.nrequests + 1
    place :=
      if s.nrequests + 1 < cfg.backlog then .returned s.submitted request
      else .waiting s.submitted request }

/-- The kernel completes the operation at this position. -/
def complete (s : State) (i : Nat) (oper : Oper) : State :=
  if oper.operation = .read ∧ oper.uses then
    { s with
      inFlight := s.inFlight.eraseIdx i
      completed := s.completed ++ [oper]
      buffer := .readBy oper.number
      overwritten := s.overwritten || (s.inFlight.eraseIdx i).any Oper.uses }
  else
    { s with inFlight := s.inFlight.eraseIdx i, completed := s.completed ++ [oper] }

/-- The rest of `file_execute_event`. A READ of no bytes returned no data. -/
def validate (cfg : FileConfig) (s : State) (number : Nat) (request : FileRequest) : State :=
  if cfg.validate ∧ request.operation = .read then
    { s with
      place := if runsOff request then .crashed else .idle
      validated := if 0 < request.size then s.validated ++ [(number, s.buffer)]
        else s.validated }
  else { s with place := .idle }

/-- `reads` and `writes` are the counters of the thread that takes the request. -/
inductive Action where
  | next (reads writes : Nat) (draws : List Draw)
  | other (tid reads writes : Nat) (draws : List Draw)
  | transfer
  | complete (i : Nat)
  | reap (count : Nat)
  | validate

/-- The steps of thread `tid`, of the kernel, and of the other threads in the generator. -/
def step (cfg : AsyncConfig) (tid : Nat) (s : State) : Action → Option State
  | .next reads writes draws =>
      match s.place, fileNextEvent cfg.file s.generator tid reads writes draws with
      | .idle, .request request after =>
          match requestTarget cfg.file request with
          | .ok _ => some (prepare cfg.file { s with generator := after } request)
          | .error _ => none
      | _, _ => none
  | .other other reads writes draws =>
      match fileNextEvent cfg.file s.generator other reads writes draws with
      | .request _ after => if other = tid then none else some { s with generator := after }
      | _ => none
  | .transfer =>
      match s.place with
      | .prepared request => transfer cfg s request
      | _ => none
  | .complete i => (s.inFlight[i]?).map (complete s i)
  | .reap count =>
      match s.place with
      | .waiting number request =>
          if 0 < count ∧ count ≤ cfg.backlog ∧ count ≤ s.completed.length then
            some { s with
              completed := s.completed.drop count
              nrequests := s.nrequests - count
              place := .returned number request }
          else none
      | _ => none
  | .validate =>
      match s.place with
      | .returned number request => some (validate cfg.file s number request)
      | _ => none

def start (perThread : Nat → Nat × Int) : State :=
  { generator := initVars perThread, place := .idle, nrequests := 0, inFlight := []
    completed := [], submitted := 0, buffer := .initial, overwritten := false, validated := [] }

structure BufferKept (s : State) : Prop where
  whole : s.overwritten = false
  own : ∀ number content, (number, content) ∈ s.validated → content = .readBy number

/-- The size of the first data request of a file, which no other exceeds. -/
def dataSize (cfg : FileConfig) : Int :=
  min (if FileLocking.Sequential cfg then cfg.requestSize else cfg.sizes.blockSize) cfg.fileSize

/-- No READ of any byte comes, and no `file_fill_buffer` stays inside the buffer. -/
structure BufferSpared (cfg : FileConfig) : Prop where
  reads : ReadsData cfg → dataSize cfg ≤ 0
  fills : cfg.validate = true → dataSize cfg < trailerLength

/-! What a step can be. -/
section Steps
variable {cfg : AsyncConfig} {tid : Nat} {s t : State}

theorem next_cases (reads writes : Nat) (draws : List Draw)
    (taken : step cfg tid s (.next reads writes draws) = some t) :
    s.place = .idle ∧ ∃ request after,
      fileNextEvent cfg.file s.generator tid reads writes draws = .request request after ∧
      t = prepare cfg.file { s with generator := after } request := by
  cases place : s.place with
  | idle =>
      cases made : fileNextEvent cfg.file s.generator tid reads writes draws with
      | request request after =>
          cases target : requestTarget cfg.file request with
          | ok i =>
              simp only [step, place, made, target, Option.some.injEq] at taken
              exact ⟨rfl, request, after, rfl, taken.symm⟩
          | error message => simp [step, place, made, target] at taken
      | divisionByZero => simp [step, place, made] at taken
      | retrying => simp [step, place, made] at taken
  | prepared | waiting | returned | crashed => simp [step, place] at taken

theorem other_cases (other reads writes : Nat) (draws : List Draw)
    (taken : step cfg tid s (.other other reads writes draws) = some t) :
    ∃ request after,
      fileNextEvent cfg.file s.generator other reads writes draws = .request request after ∧
      t = { s with generator := after } := by
  cases made : fileNextEvent cfg.file s.generator other reads writes draws with
  | request request after =>
      simp only [step, made] at taken
      split at taken
      · cases taken
      · exact ⟨request, after, rfl, (Option.some.inj taken).symm⟩
  | divisionByZero => simp [step, made] at taken
  | retrying => simp [step, made] at taken

theorem transfer_cases (taken : step cfg tid s .transfer = some t) :
    ∃ request, s.place = .prepared request ∧ transfer cfg s request = some t := by
  cases place : s.place with
  | prepared request =>
      simp only [step, place] at taken
      exact ⟨request, rfl, taken⟩
  | idle | waiting | returned | crashed => simp [step, place] at taken

theorem reap_cases (count : Nat) (taken : step cfg tid s (.reap count) = some t) :
    ∃ number request, s.place = .waiting number request ∧ 0 < count ∧
      count ≤ s.completed.length ∧
      t = { s with
        completed := s.completed.drop count
        nrequests := s.nrequests - count
        place := .returned number request } := by
  cases place : s.place with
  | waiting number request =>
      simp only [step, place] at taken
      split at taken
      · rename_i bounds
        exact ⟨number, request, rfl, bounds.1, bounds.2.2, (Option.some.inj taken).symm⟩
      · cases taken
  | idle | prepared | returned | crashed => simp [step, place] at taken

theorem validate_cases (taken : step cfg tid s .validate = some t) :
    ∃ number request, s.place = .returned number request ∧
      t = validate cfg.file s number request := by
  cases place : s.place with
  | returned number request =>
      simp only [step, place, Option.some.injEq] at taken
      exact ⟨number, request, rfl, taken.symm⟩
  | idle | prepared | waiting | crashed => simp [step, place] at taken

end Steps

/-! With a backlog of 1 every operation is over when its call returns. -/
section Synchronous
variable {cfg : AsyncConfig} {tid : Nat} {s t : State}

/-- The kernel has nothing of the thread. -/
structure Quiet (s : State) : Prop where
  inFlight : s.inFlight = []
  completed : s.completed = []
  nrequests : s.nrequests = 0

def HasRead (s : State) (number : Nat) (request : FileRequest) : Prop :=
  request.operation = .read → 0 < request.size → s.buffer = .readBy number

/-- The one operation there is, by the place of the thread. -/
def OneAtATime (s : State) : Prop :=
  match s.place with
  | .idle | .prepared _ | .crashed => Quiet s
  | .waiting number request => s.nrequests = 1 ∧
      (s.inFlight = [⟨number, request.operation, request.size⟩] ∧ s.completed = [] ∨
        s.inFlight = [] ∧ s.completed = [⟨number, request.operation, request.size⟩] ∧
          HasRead s number request)
  | .returned number request => Quiet s ∧ HasRead s number request

structure Tracked (s : State) : Prop where
  kept : BufferKept s
  one : OneAtATime s

theorem quiet_of_place (tracked : Tracked s)
    (place : s.place = .idle ∨ ∃ request, s.place = .prepared request) : Quiet s := by
  have one := tracked.one
  rcases place with place | ⟨request, place⟩
  · rwa [OneAtATime, place] at one
  · rwa [OneAtATime, place] at one

theorem prepare_tracked (tracked : Tracked s) (idle : s.place = .idle) (request : FileRequest) :
    Tracked (prepare cfg.file s request) := by
  have quiet := quiet_of_place tracked (Or.inl idle)
  have same : Quiet { s with place := .prepared request } :=
    ⟨quiet.inFlight, quiet.completed, quiet.nrequests⟩
  unfold prepare
  split
  · exact ⟨⟨tracked.kept.whole, tracked.kept.own⟩, same⟩
  · split
    · refine ⟨⟨?_, tracked.kept.own⟩, ?_⟩
      · simp [fill, tracked.kept.whole, quiet.inFlight]
      · unfold OneAtATime fill
        by_cases short : runsOff request
        · rw [if_pos short]
          exact ⟨quiet.inFlight, quiet.completed, quiet.nrequests⟩
        · rw [if_neg short]
          exact ⟨quiet.inFlight, quiet.completed, quiet.nrequests⟩
    · exact ⟨⟨tracked.kept.whole, tracked.kept.own⟩, same⟩
  · exact tracked
  · exact tracked

theorem transfer_tracked (one : cfg.backlog = 1) (tracked : Tracked s) (request : FileRequest)
    (prepared : s.place = .prepared request) (done : transfer cfg s request = some t) :
    Tracked t := by
  have quiet := quiet_of_place tracked (Or.inr ⟨request, prepared⟩)
  unfold transfer at done
  split at done
  · cases done
  · rw [← Option.some.inj done]
    refine ⟨⟨tracked.kept.whole, tracked.kept.own⟩, ?_⟩
    have full : ¬ s.nrequests + 1 < cfg.backlog := by omega
    simp only [OneAtATime, if_neg full]
    exact ⟨by rw [quiet.nrequests],
      Or.inl ⟨by rw [quiet.inFlight, List.nil_append], quiet.completed⟩⟩

/-- An operation is in flight while its thread waits for it, and no other is. -/
theorem complete_tracked (tracked : Tracked s) (i : Nat) (oper : Oper)
    (here : s.inFlight[i]? = some oper) : Tracked (complete s i oper) := by
  have nonempty : s.inFlight ≠ [] := by
    intro empty
    simp [empty] at here
  have one := tracked.one
  cases place : s.place with
  | idle | prepared | crashed =>
      rw [OneAtATime, place] at one
      exact absurd one.inFlight nonempty
  | returned =>
      rw [OneAtATime, place] at one
      exact absurd one.1.inFlight nonempty
  | waiting number request =>
      rw [OneAtATime, place] at one
      obtain ⟨waited, ⟨single, none_⟩ | ⟨empty, _⟩⟩ := one
      · obtain ⟨rfl, same⟩ : i = 0 ∧ oper = ⟨number, request.operation, request.size⟩ := by
          rw [single, List.getElem?_singleton] at here
          split at here
          · exact ⟨by assumption, (Option.some.inj here).symm⟩
          · cases here
        subst same
        unfold complete
        split
        · refine ⟨⟨by simp [tracked.kept.whole, single], tracked.kept.own⟩, ?_⟩
          simp only [OneAtATime, place]
          exact ⟨waited, Or.inr ⟨by rw [single]; rfl, by rw [none_]; rfl, fun _ _ => rfl⟩⟩
        · rename_i noData
          refine ⟨⟨tracked.kept.whole, tracked.kept.own⟩, ?_⟩
          simp only [OneAtATime, place]
          refine ⟨waited, Or.inr ⟨by rw [single]; rfl, by rw [none_]; rfl, fun read some_ => ?_⟩⟩
          exact absurd ⟨read, decide_eq_true some_⟩ noData
      · exact absurd empty nonempty

theorem reap_tracked (tracked : Tracked s) (count number : Nat) (request : FileRequest)
    (place : s.place = .waiting number request) (some_ : 0 < count)
    (enough : count ≤ s.completed.length) :
    Tracked { s with
      completed := s.completed.drop count
      nrequests := s.nrequests - count
      place := .returned number request } := by
  have one := tracked.one
  rw [OneAtATime, place] at one
  refine ⟨⟨tracked.kept.whole, tracked.kept.own⟩, ?_⟩
  obtain ⟨waited, ⟨_, none_⟩ | ⟨empty, single, read⟩⟩ := one
  · rw [none_, List.length_nil] at enough
    omega
  · rw [single, List.length_singleton] at enough
    obtain rfl : count = 1 := by omega
    exact ⟨⟨empty, by rw [single]; rfl, by rw [waited]⟩, read⟩

theorem validate_tracked (tracked : Tracked s) (number : Nat) (request : FileRequest)
    (place : s.place = .returned number request) :
    Tracked (validate cfg.file s number request) := by
  have one := tracked.one
  rw [OneAtATime, place] at one
  obtain ⟨quiet, read⟩ := one
  unfold validate
  split
  · rename_i checked
    refine ⟨⟨tracked.kept.whole, fun other content member => ?_⟩, ?_⟩
    · simp only at member
      split at member
      · rename_i some_
        rcases List.mem_append.mp member with old | new
        · exact tracked.kept.own other content old
        · obtain ⟨rfl, rfl⟩ := Prod.mk.inj (List.mem_singleton.mp new)
          exact read checked.2 some_
      · exact tracked.kept.own other content member
    · unfold OneAtATime
      by_cases short : runsOff request
      · rw [if_pos short]
        exact ⟨quiet.inFlight, quiet.completed, quiet.nrequests⟩
      · rw [if_neg short]
        exact ⟨quiet.inFlight, quiet.completed, quiet.nrequests⟩
  · exact ⟨⟨tracked.kept.whole, tracked.kept.own⟩,
      ⟨quiet.inFlight, quiet.completed, quiet.nrequests⟩⟩

/-- The generator has no part in what is tracked. -/
theorem generator_tracked (tracked : Tracked s) (after : GeneratorState) :
    Tracked { s with generator := after } := by
  refine ⟨⟨tracked.kept.whole, tracked.kept.own⟩, ?_⟩
  have one := tracked.one
  unfold OneAtATime at one ⊢
  cases place : s.place with
  | idle | prepared | crashed =>
      rw [place] at one
      exact ⟨one.inFlight, one.completed, one.nrequests⟩
  | returned =>
      rw [place] at one
      exact ⟨⟨one.1.inFlight, one.1.completed, one.1.nrequests⟩, one.2⟩
  | waiting =>
      rw [place] at one
      exact one

theorem step_tracked (one : cfg.backlog = 1) (a : Action) (tracked : Tracked s)
    (taken : step cfg tid s a = some t) : Tracked t := by
  cases a with
  | next reads writes draws =>
      obtain ⟨idle, request, after, _, rfl⟩ := next_cases reads writes draws taken
      exact prepare_tracked (generator_tracked tracked after) idle request
  | other other reads writes draws =>
      obtain ⟨_, after, _, rfl⟩ := other_cases other reads writes draws taken
      exact generator_tracked tracked after
  | transfer =>
      obtain ⟨request, prepared, done⟩ := transfer_cases taken
      exact transfer_tracked one tracked request prepared done
  | complete i =>
      obtain ⟨oper, here, rfl⟩ := Option.map_eq_some_iff.mp taken
      exact complete_tracked tracked i oper here
  | reap count =>
      obtain ⟨number, request, place, some_, enough, rfl⟩ := reap_cases count taken
      exact reap_tracked tracked count number request place some_ enough
  | validate =>
      obtain ⟨number, request, place, rfl⟩ := validate_cases taken
      exact validate_tracked tracked number request place

theorem one_at_a_time_kept (one : cfg.backlog = 1) (perThread : Nat → Nat × Int)
    (schedule : List Action) :
    Always (step cfg tid) BufferKept (start perThread) schedule := by
  apply always_mono (fun _ tracked => Tracked.kept tracked)
  apply invariant_keeps fun s a t tracked taken => step_tracked one a tracked taken
  exact ⟨⟨rfl, nofun⟩, ⟨rfl, rfl, rfl⟩⟩

end Synchronous

/-! Which requests come. -/
section Requests
variable {cfg : FileConfig} {st after : GeneratorState} {request : FileRequest}

/-- The sequential position stays inside a file, unless sizes are negative. -/
def Inside (cfg : FileConfig) (st : GeneratorState) : Prop :=
  0 ≤ cfg.requestSize → 0 ≤ st.position ∧ st.position ≤ cfg.fileSize

theorem place_inside (inside : Inside cfg st) (sizes : 0 ≤ cfg.requestSize) :
    0 ≤ (SequentialTiles.place cfg st).2 ∧ (SequentialTiles.place cfg st).2 ≤ cfg.fileSize := by
  unfold SequentialTiles.place
  split
  · exact ⟨le_rfl, Int.natCast_nonneg _⟩
  · exact inside sizes

theorem seq_inside (inside : Inside cfg st) : Inside cfg (fileGetSeqRequest cfg st).2 := by
  intro sizes
  by_cases due : FsyncDue cfg st
  · rw [SequentialTiles.seq_fsync due, SequentialTiles.fsync_request_place.2]
    exact inside sizes
  · obtain ⟨after, below⟩ := place_inside inside sizes
    have moved : (fileGetSeqRequest cfg st).2.position = _ :=
      congrArg Prod.snd (SequentialTiles.seq_data due).2.1
    rw [moved, afterRequest, requestAt]
    simp only
    split
    · exact ⟨le_rfl, Int.natCast_nonneg _⟩
    · simp only
      omega

theorem next_sequential (sequential : FileLocking.Sequential cfg) (tid reads writes : Nat)
    (draws : List Draw) : fileNextEvent cfg st tid reads writes draws =
      .request (fileGetSeqRequest cfg st).1 (fileGetSeqRequest cfg st).2 := if_pos sequential

theorem next_random (random : ¬ FileLocking.Sequential cfg) (tid reads writes : Nat)
    (draws : List Draw) :
    fileNextEvent cfg st tid reads writes draws =
      fileGetRndRequest cfg st tid reads writes draws := if_neg random

theorem next_inside (tid reads writes : Nat) (draws : List Draw) (inside : Inside cfg st)
    (made : fileNextEvent cfg st tid reads writes draws = .request request after) :
    Inside cfg after := by
  by_cases sequential : FileLocking.Sequential cfg
  · rw [next_sequential sequential] at made
    exact (RndOutcome.request.inj made).2 ▸ seq_inside inside
  · rw [next_random sequential] at made
    unfold fileGetRndRequest at made
    split at made
    · have moved : (fsyncRequest cfg st).2 = after := (RndOutcome.request.inj made).2
      unfold Inside
      rwa [← moved, SequentialTiles.fsync_request_place.2]
    · rw [(data_request_made cfg st after tid _ draws request made).1]
      exact inside

theorem next_size_le (tid reads writes : Nat) (draws : List Draw) (inside : Inside cfg st)
    (made : fileNextEvent cfg st tid reads writes draws = .request request after)
    (data : request.operation ≠ .fsync) : request.size ≤ dataSize cfg := by
  unfold dataSize
  by_cases sequential : FileLocking.Sequential cfg
  · rw [next_sequential sequential] at made
    have same := (RndOutcome.request.inj made).1
    rw [if_pos sequential]
    by_cases due : FsyncDue cfg st
    · rw [← same, SequentialTiles.seq_fsync due, fsync_request_operation] at data
      exact absurd rfl data
    · rw [← same, (SequentialTiles.seq_data due).1, requestAt]
      by_cases sizes : 0 ≤ cfg.requestSize
      · have after := (place_inside inside sizes).1
        simp only
        omega
      · simp only
        omega
  · rw [next_random sequential] at made
    rw [if_neg sequential]
    rcases rnd_request_cases cfg st after tid reads writes draws request made with
      fsync | ⟨draw, drawn⟩
    · exact absurd fsync data
    · unfold drawnRequest at drawn
      split at drawn
      · cases drawn
      · rw [← Option.some.inj drawn, FileConfig.fileSize]
        simp only
        omega

end Requests

/-! Requests too small for any use of the buffer, or that never write it. -/
section Spared
variable {cfg : AsyncConfig} {tid : Nat} {s t : State}

/-- An operation with these data neither writes the buffer nor was the buffer filled for it. -/
def Harmless (cfg : FileConfig) (operation : FileOp) (size : Int) : Prop :=
  size ≤ 0 ∨ operation = .write ∧ cfg.validate = false

def PlaceHarmless (cfg : FileConfig) : Place → Prop
  | .idle | .crashed => True
  | .prepared request | .waiting _ request | .returned _ request =>
      Harmless cfg request.operation request.size

structure Untouched (cfg : FileConfig) (s : State) : Prop where
  whole : s.overwritten = false
  none_ : s.validated = []
  inside : Inside cfg s.generator
  inFlight : ∀ oper ∈ s.inFlight, Harmless cfg oper.operation oper.size
  place : PlaceHarmless cfg s.place

theorem none_used (untouched : Untouched cfg.file s) (checked : cfg.file.validate = true) :
    s.inFlight.any Oper.uses = false := by
  rw [List.any_eq_false]
  intro oper member used
  rcases untouched.inFlight oper member with none_ | ⟨_, unchecked⟩
  · exact absurd (of_decide_eq_true used) (not_lt.mpr none_)
  · rw [checked] at unchecked
    cases unchecked

theorem prepare_untouched (spared : BufferSpared cfg.file) (untouched : Untouched cfg.file s)
    (request : FileRequest)
    (reads : request.operation = .read → ReadsData cfg.file)
    (bound : request.operation ≠ .fsync → request.size ≤ dataSize cfg.file) :
    Untouched cfg.file (prepare cfg.file s request) := by
  unfold prepare
  cases operation : request.operation with
  | read =>
      have none_ := le_trans (bound (by simp [operation])) (spared.reads (reads operation))
      exact { untouched with place := Or.inl none_ }
  | write =>
      cases checked : cfg.file.validate with
      | false => exact { untouched with place := Or.inr ⟨operation, checked⟩ }
      | true =>
          have small := lt_of_le_of_lt (bound (by simp [operation])) (spared.fills checked)
          refine { untouched with whole := ?_, place := ?_ }
          · simp [fill, untouched.whole, none_used untouched checked]
          · by_cases short : runsOff request
            · simp only [fill, if_pos short, ↓reduceIte]
              trivial
            · simp only [fill, if_neg short, ↓reduceIte]
              left
              unfold runsOff trailerLength at short
              unfold trailerLength at small
              omega
  | null => exact untouched
  | fsync => exact untouched

theorem harmless_not_read (operation : FileOp) (size : Int)
    (harmless : Harmless cfg.file operation size) : ¬ (operation = .read ∧ 0 < size) := by
  rintro ⟨rfl, some_⟩
  rcases harmless with none_ | ⟨write, _⟩
  · omega
  · cases write

theorem complete_untouched (untouched : Untouched cfg.file s) (i : Nat) (oper : Oper)
    (here : s.inFlight[i]? = some oper) : Untouched cfg.file (complete s i oper) := by
  have harmless := untouched.inFlight oper (List.mem_of_getElem? here)
  unfold complete
  rw [if_neg fun used => harmless_not_read _ _ harmless ⟨used.1, of_decide_eq_true used.2⟩]
  exact { untouched with
    inFlight := fun other member => untouched.inFlight other (List.mem_of_mem_eraseIdx member) }

theorem validate_untouched (untouched : Untouched cfg.file s) (number : Nat)
    (request : FileRequest) (place : s.place = .returned number request) :
    Untouched cfg.file (validate cfg.file s number request) := by
  have harmless := untouched.place
  rw [place] at harmless
  unfold validate
  split
  · rename_i checked
    have noData : ¬ 0 < request.size :=
      fun some_ => harmless_not_read _ _ harmless ⟨checked.2, some_⟩
    rw [if_neg noData]
    refine { untouched with place := ?_ }
    split <;> trivial
  · exact { untouched with place := trivial }

theorem step_untouched (spared : BufferSpared cfg.file) (a : Action)
    (untouched : Untouched cfg.file s) (taken : step cfg tid s a = some t) :
    Untouched cfg.file t := by
  cases a with
  | next reads writes draws =>
      obtain ⟨_, request, after, made, rfl⟩ := next_cases reads writes draws taken
      apply prepare_untouched spared
      · exact { untouched with
          inside := next_inside tid reads writes draws untouched.inside made }
      · intro read
        by_contra writing
        exact FileValidation.writing_request cfg.file s.generator after tid reads writes draws
          request writing made read
      · exact next_size_le tid reads writes draws untouched.inside made
  | other other reads writes draws =>
      obtain ⟨_, after, made, rfl⟩ := other_cases other reads writes draws taken
      exact { untouched with
        inside := next_inside other reads writes draws untouched.inside made }
  | transfer =>
      obtain ⟨request, prepared, done⟩ := transfer_cases taken
      have harmless := untouched.place
      rw [prepared] at harmless
      unfold transfer at done
      split at done
      · cases done
      · rw [← Option.some.inj done]
        -- what goes in flight is the request that was prepared
        refine { untouched with inFlight := fun oper member => ?_, place := ?_ }
        · rcases List.mem_append.mp member with old | new
          · exact untouched.inFlight oper old
          · rw [List.mem_singleton.mp new]
            exact harmless
        · simp only
          split <;> exact harmless
  | complete i =>
      obtain ⟨oper, here, rfl⟩ := Option.map_eq_some_iff.mp taken
      exact complete_untouched untouched i oper here
  | reap count =>
      obtain ⟨number, request, place, _, _, rfl⟩ := reap_cases count taken
      have harmless := untouched.place
      rw [place] at harmless
      exact { untouched with place := harmless }
  | validate =>
      obtain ⟨number, request, place, rfl⟩ := validate_cases taken
      exact validate_untouched untouched number request place

theorem spared_kept (spared : BufferSpared cfg.file) (perThread : Nat → Nat × Int)
    (schedule : List Action) :
    Always (step cfg tid) BufferKept (start perThread) schedule := by
  have kept : ∀ s, Untouched cfg.file s → BufferKept s := by
    intro s untouched
    refine ⟨untouched.whole, fun number content member => ?_⟩
    rw [untouched.none_] at member
    cases member
  apply always_mono kept
  apply invariant_keeps fun s a t untouched taken => step_untouched spared a untouched taken
  exact ⟨rfl, rfl, fun _ => ⟨le_rfl, Int.natCast_nonneg _⟩, nofun, trivial⟩

end Spared

/-! Data requests that must come. -/
section Coming
variable {cfg : FileConfig} {tid : Nat} {st : GeneratorState}

/-- The operation of a data request, for these counters. -/
def dataOperation (cfg : FileConfig) (reads writes : Nat) : FileOp :=
  if FileLocking.Sequential cfg then seqOperation cfg else rndOperation cfg reads writes

theorem reads_come (reading : ReadsData cfg) :
    ∃ reads writes, dataOperation cfg reads writes = .read := by
  rcases reading with mode | mode | ⟨mode, ratio⟩
  · exact ⟨0, 0, by simp [dataOperation, FileLocking.Sequential, seqOperation, mode]⟩
  · exact ⟨0, 0, by simp [dataOperation, FileLocking.Sequential, rndOperation, mode]⟩
  · -- after enough writes the quotient is below any ratio
    obtain ⟨writes, below⟩ := exists_nat_one_div_lt ratio
    refine ⟨0, writes, ?_⟩
    simp only [dataOperation, FileLocking.Sequential, mode, reduceCtorEq, or_self, ↓reduceIte,
      rndOperation, Nat.cast_zero, zero_add]
    exact if_pos below

theorem writes_come (writing : ¬ ReadsData cfg) : dataOperation cfg 0 0 = .write := by
  unfold ReadsData at writing
  cases mode : cfg.testMode with
  | write | rewrite =>
      simp [dataOperation, FileLocking.Sequential, seqOperation, mode]
  | rndWrite => simp [dataOperation, FileLocking.Sequential, rndOperation, mode]
  | read | rndRead => simp [mode] at writing
  | rndRw =>
      have ratio : cfg.rwRatio ≤ 0 := by simpa [mode] using writing
      have above : ¬ (1 : ℚ) < cfg.rwRatio := by linarith
      simp [dataOperation, FileLocking.Sequential, rndOperation, mode, above]

/-- No other thread has recorded a block. -/
structure Ready (cfg : FileConfig) (tid : Nat) (st : GeneratorState) : Prop where
  file : st.currentFile ≤ cfg.sizes.numFiles
  after : 0 ≤ st.position
  before : st.position < cfg.fileSize
  free : ∀ i, i ≠ tid → st.perThread i = (0, -1)

def firstDraw : Draw := FileLocking.firstBlock.draw

structure DataNext (cfg : FileConfig) (tid : Nat) (st : GeneratorState) (operation : FileOp)
    (request : FileRequest) (after : GeneratorState) : Prop where
  kind : request.operation = operation
  some_ : 0 < request.size
  first : st.position = 0 → request.size = dataSize cfg
  target : requestTarget cfg request = .ok request.fileId
  ready : Ready cfg tid after
  fsynced : after.fsyncedFile = st.fsyncedFile
  dirty : operation = .read → after.isDirty = st.isDirty

theorem target_accepted (request : FileRequest) (file : request.fileId ≤ cfg.sizes.numFiles)
    (after : 0 ≤ request.pos + request.size)
    (fits : request.pos + request.size ≤ cfg.fileSize) :
    requestTarget cfg request = .ok request.fileId := by
  have signed := cfg.sizes.totalSigned
  have part : cfg.fileSize ≤ cfg.sizes.totalSize := Nat.div_le_self _ _
  have whole : Int.bmod (request.pos + request.size) (2 ^ 64) = request.pos + request.size :=
    Int.bmod_eq_of_le_mul_two (by omega) (by omega)
  unfold requestTarget
  rw [if_neg (not_lt.mpr file), whole, if_neg (not_lt.mpr fits)]

/-- Behind the rewind the walk stands in a file and before its end. -/
theorem ready_place (ready : Ready cfg tid st) (bytes : 0 < (cfg.fileSize : Int)) :
    (SequentialTiles.place cfg st).1 < cfg.sizes.numFiles ∧
      0 ≤ (SequentialTiles.place cfg st).2 ∧ (SequentialTiles.place cfg st).2 < cfg.fileSize ∧
      (st.position = 0 → (SequentialTiles.place cfg st).2 = 0) := by
  have file := ready.file
  unfold SequentialTiles.place
  split
  · exact ⟨cfg.sizes.someFiles, le_rfl, bytes, fun _ => rfl⟩
  · exact ⟨by simp only; omega, ready.after, ready.before, id⟩

theorem after_request_ready (file : Nat) (position : Int) (someSize : 0 < cfg.requestSize)
    (within : file < cfg.sizes.numFiles) (after : 0 ≤ position) (before : position < cfg.fileSize) :
    (afterRequest cfg file position).1 ≤ cfg.sizes.numFiles ∧
      0 ≤ (afterRequest cfg file position).2 ∧
      (afterRequest cfg file position).2 < cfg.fileSize := by
  have unsigned := cfg.sizes.filesUnsigned
  unfold afterRequest requestAt
  simp only
  split
  · simp only
    omega
  · simp only
    omega

theorem seq_next (sequential : FileLocking.Sequential cfg) (some_ : 0 < dataSize cfg)
    (ready : Ready cfg tid st) (notDue : ¬ FsyncRounds.RoundDue cfg st) :
    DataNext cfg tid st (seqOperation cfg) (fileGetSeqRequest cfg st).1
      (fileGetSeqRequest cfg st).2 := by
  have notFsync : ¬ FsyncDue cfg st := fun due => notDue ⟨due.1, due.2.2⟩
  obtain ⟨request, moved, fsynced⟩ := SequentialTiles.seq_data notFsync
  have files : (fileGetSeqRequest cfg st).2.currentFile = _ := congrArg Prod.fst moved
  have position : (fileGetSeqRequest cfg st).2.position = _ := congrArg Prod.snd moved
  unfold dataSize at some_
  rw [if_pos sequential] at some_
  obtain ⟨file, after, before, first⟩ := ready_place ready (by omega)
  obtain ⟨nextFile, nextAfter, nextBefore⟩ := after_request_ready _ _ (by omega) file after before
  constructor
  case kind => rw [request, requestAt]
  case some_ =>
    rw [request, requestAt]
    simp only
    omega
  case first =>
    intro zero
    rw [request, requestAt, dataSize, if_pos sequential, first zero, sub_zero]
  case target =>
    rw [request]
    apply target_accepted
    · exact file.le
    · simp only [requestAt]
      omega
    · simp only [requestAt]
      omega
  case ready =>
    refine ⟨by rwa [files], by rwa [position], by rwa [position], ?_⟩
    have records : (fileGetSeqRequest cfg st).2.perThread = st.perThread := by
      unfold FsyncDue seqOperation at notFsync
      simp only [fileGetSeqRequest, if_neg notFsync]
    rw [records]
    exact ready.free
  case fsynced => exact fsynced
  case dirty =>
    intro read
    have kept := (FsyncRounds.seq_step notFsync).dirty
    rw [request, requestAt, read] at kept
    exact kept

theorem rnd_next (random : ¬ FileLocking.Sequential cfg) (some_ : 0 < dataSize cfg)
    (ready : Ready cfg tid st) (notDue : ¬ FsyncRounds.RoundDue cfg st) (reads writes : Nat) :
    ∃ request after,
      fileGetRndRequest cfg st tid reads writes [firstDraw] = .request request after ∧
      DataNext cfg tid st (rndOperation cfg reads writes) request after := by
  unfold dataSize at some_
  rw [if_neg random] at some_
  have someBytes : cfg.sizes.fileSize ≠ 0 := by
    unfold FileConfig.fileSize at some_
    omega
  -- the least draw names the first block, which no other thread has
  have floor : (firstDraw.value * cfg.sizes.totalSize).floor = 0 := by
    have zero : firstDraw.value = 0 := rfl
    rw [zero, zero_mul]
    exact Rat.floor_intCast 0
  have block : tmppos cfg.sizes firstDraw = 0 := by simp [tmppos, floor]
  have drawn : drawnRequest cfg.sizes (rndOperation cfg reads writes) firstDraw =
      some ⟨rndOperation cfg reads writes, 0, 0, min cfg.sizes.blockSize cfg.fileSize⟩ := by
    unfold drawnRequest
    rw [if_neg someBytes, block]
    simp [FileConfig.fileSize]
  have free : inUse cfg st tid
      ⟨rndOperation cfg reads writes, 0, 0, min cfg.sizes.blockSize cfg.fileSize⟩ = false := by
    have apart (i : Nat) (other : i ≠ tid) : st.perThread i ≠ (0, 0) := by
      rw [ready.free i other]
      simp
    simp only [inUse, Bool.and_eq_false_iff, List.any_eq_false, Bool.and_eq_true, bne_iff_ne,
      beq_iff_eq, not_and]
    exact Or.inr fun i _ other => apart i other
  unfold fileGetRndRequest
  unfold FsyncRounds.RoundDue at notDue
  rw [if_neg notDue, data_request_free cfg st tid _ firstDraw [] _ drawn free]
  refine ⟨_, _, rfl, ?_⟩
  constructor
  case kind => rfl
  case some_ => exact some_
  case first => exact fun _ => by rw [dataSize, if_neg random]
  case target =>
    apply target_accepted
    · exact Nat.zero_le _
    · simp only
      omega
    · simp only
      omega
  case ready =>
    refine ⟨ready.file, ready.after, ready.before, fun i other => ?_⟩
    simp only [afterData, if_neg other]
    exact ready.free i other
  case fsynced => rfl
  case dirty =>
    intro read
    simp [afterData, read]

theorem data_next (some_ : 0 < dataSize cfg) (ready : Ready cfg tid st)
    (notDue : ¬ FsyncRounds.RoundDue cfg st) (reads writes : Nat) :
    ∃ request after,
      fileNextEvent cfg st tid reads writes [firstDraw] = .request request after ∧
      DataNext cfg tid st (dataOperation cfg reads writes) request after := by
  by_cases sequential : FileLocking.Sequential cfg
  · rw [next_sequential sequential, dataOperation, if_pos sequential]
    exact ⟨_, _, rfl, seq_next sequential some_ ready notDue⟩
  · rw [next_random sequential, dataOperation, if_neg sequential]
    exact rnd_next sequential some_ ready notDue reads writes

theorem idle_ready (some_ : 0 < dataSize cfg) : Ready cfg tid idleState := by
  refine ⟨Nat.zero_le _, le_rfl, ?_, fun _ _ => rfl⟩
  exact lt_of_lt_of_le some_ (min_le_right _ _)

theorem clean_not_due (clean : st.isDirty = false) : ¬ FsyncRounds.RoundDue cfg st := by
  rintro ⟨_, dirty, _⟩
  rw [clean] at dirty
  cases dirty

theorem fsync_next (writing : FileLocking.Sequential cfg → seqOperation cfg = .write)
    (due : FsyncRounds.RoundDue cfg st) : fileNextEvent cfg st tid 0 0 [] =
      .request (fsyncRequest cfg st).1 (fsyncRequest cfg st).2 := by
  by_cases sequential : FileLocking.Sequential cfg
  · rw [next_sequential sequential,
      SequentialTiles.seq_fsync ⟨due.1, writing sequential, due.2⟩]
  · rw [next_random sequential, fileGetRndRequest]
    exact if_pos due

end Coming

/-! With a larger backlog an operation is in flight behind its call. -/
section Overlap
variable (cfg : AsyncConfig) (tid : Nat) {s : State}

theorem next_step (idle : s.place = .idle) (reads writes : Nat) (draws : List Draw)
    (request : FileRequest) (after : GeneratorState)
    (made : fileNextEvent cfg.file s.generator tid reads writes draws = .request request after)
    (target : requestTarget cfg.file request = .ok request.fileId) :
    step cfg tid s (.next reads writes draws) =
      some (prepare cfg.file { s with generator := after } request) := by
  simp only [step, idle, made, target]

theorem transfer_step (request : FileRequest) (prepared : s.place = .prepared request)
    (some_ : 0 < request.size) :
    step cfg tid s .transfer = some { s with
      inFlight := s.inFlight ++ [⟨s.submitted, request.operation, request.size⟩]
      submitted := s.submitted + 1
      nrequests := s.nrequests + 1
      place :=
        if s.nrequests + 1 < cfg.backlog then .returned s.submitted request
        else .waiting s.submitted request } := by
  simp only [step, prepared, transfer, if_neg (not_lt.mpr some_.le)]

theorem fsync_step (idle : s.place = .idle)
    (writing : FileLocking.Sequential cfg.file → seqOperation cfg.file = .write)
    (due : FsyncRounds.RoundDue cfg.file s.generator)
    (within : s.generator.fsyncedFile < cfg.file.sizes.numFiles) :
    step cfg tid s (.next 0 0 []) = some { s with
      generator :=
        if s.generator.fsyncedFile + 1 = cfg.file.sizes.numFiles then
          { s.generator with fsyncedFile := 0, isDirty := false }
        else { s.generator with fsyncedFile := s.generator.fsyncedFile + 1 } } := by
  have request : (fsyncRequest cfg.file s.generator).1 =
      FsyncRounds.fsyncOf s.generator.fsyncedFile := FsyncRounds.fsync_request_of
  have unsigned := cfg.file.sizes.filesUnsigned
  have next : (s.generator.fsyncedFile + 1) % 2 ^ 32 = s.generator.fsyncedFile + 1 :=
    Nat.mod_eq_of_lt (by omega)
  have target : requestTarget cfg.file (FsyncRounds.fsyncOf s.generator.fsyncedFile) =
      .ok s.generator.fsyncedFile :=
    target_accepted _ within.le le_rfl (Int.natCast_nonneg _)
  have accepted : requestTarget cfg.file (fsyncRequest cfg.file s.generator).1 =
      .ok (fsyncRequest cfg.file s.generator).1.fileId := by
    rw [request, target]
    rfl
  rw [next_step cfg tid idle 0 0 [] _ _ (fsync_next writing due) accepted, prepare,
    fsync_request_operation]
  simp only [fsyncRequest, next]
  split <;> rfl

theorem round_reaches (left : Nat) (idle : s.place = .idle)
    (writing : FileLocking.Sequential cfg.file → seqOperation cfg.file = .write)
    (due : FsyncRounds.RoundDue cfg.file s.generator)
    (count : s.generator.fsyncedFile + left + 1 = cfg.file.sizes.numFiles) :
    Reaches (step cfg tid) s
      { s with generator := { s.generator with fsyncedFile := 0, isDirty := false } } := by
  induction left generalizing s with
  | zero =>
      have taken := fsync_step cfg tid idle writing due (by omega)
      rw [if_pos count] at taken
      exact reaches_step _ taken
  | succ left ih =>
      have taken := fsync_step cfg tid idle writing due (by omega)
      rw [if_neg (by omega)] at taken
      have rest : s.generator.fsyncedFile + 1 + left + 1 = cfg.file.sizes.numFiles := by omega
      exact reaches_trans (reaches_step _ taken) (ih idle due rest)

/-- The thread has made its first request, and the operation is in flight. -/
def flying (after : GeneratorState) (request : FileRequest) (buffer : Content) : State :=
  { generator := after, place := .returned 0 request, nrequests := 1
    inFlight := [⟨0, request.operation, request.size⟩], completed := [], submitted := 1
    buffer := buffer, overwritten := false, validated := [] }

def idleStart : State := start fun _ => (0, -1)

theorem data_operation_kind (cfg : FileConfig) (reads writes : Nat) :
    dataOperation cfg reads writes = .read ∨ dataOperation cfg reads writes = .write := by
  unfold dataOperation seqOperation
  split
  · split
    · exact Or.inr rfl
    · exact Or.inl rfl
  · exact rnd_operation_data cfg reads writes

theorem data_prepared (empty : s.inFlight = []) (request : FileRequest)
    (data : request.operation = .read ∨ request.operation = .write)
    (long : cfg.file.validate = true → request.operation = .write →
      trailerLength ≤ request.size) :
    ∃ buffer, (request.operation = .read → buffer = s.buffer) ∧
      prepare cfg.file s request = { s with place := .prepared request, buffer := buffer } := by
  unfold prepare
  rcases data with read | write
  · rw [read]
    exact ⟨s.buffer, fun _ => rfl, rfl⟩
  · rw [write]
    cases checked : cfg.file.validate with
    | false => exact ⟨s.buffer, fun _ => rfl, rfl⟩
    | true =>
        have enough : ¬ runsOff request := fun short =>
          absurd (long checked write) (not_le.mpr short.2)
        refine ⟨.filled, (fun read => by cases read), ?_⟩
        simp only [fill, if_neg enough, ↓reduceIte, empty, List.any_nil, Bool.or_false]

theorem first_flies (two : 1 < cfg.backlog) (some_ : 0 < dataSize cfg.file) (reads writes : Nat)
    (long : cfg.file.validate = true → dataOperation cfg.file reads writes = .write →
      trailerLength ≤ dataSize cfg.file) :
    ∃ request after buffer,
      DataNext cfg.file tid idleState (dataOperation cfg.file reads writes) request after ∧
      (request.operation = .read → buffer = .initial) ∧
      Reaches (step cfg tid) idleStart (flying after request buffer) := by
  have clean : ¬ FsyncRounds.RoundDue cfg.file idleState := clean_not_due rfl
  have ready : Ready cfg.file tid idleState := idle_ready some_
  obtain ⟨request, after, made, data⟩ := data_next some_ ready clean reads writes
  have taken := next_step cfg tid (s := idleStart) rfl reads writes _ request after made
    data.target
  obtain ⟨buffer, unfilled, prepared⟩ := data_prepared cfg
    (s := { idleStart with generator := after }) rfl request
    (data.kind ▸ data_operation_kind cfg.file reads writes)
    (fun checked write => by
      rw [data.first rfl]
      exact long checked (data.kind ▸ write))
  rw [prepared] at taken
  have moved := transfer_step cfg tid
    (s := { idleStart with generator := after, place := .prepared request, buffer := buffer })
    request rfl data.some_
  have early : 0 + 1 < cfg.backlog := by omega
  refine ⟨request, after, buffer, data, unfilled, ?_⟩
  apply reaches_trans (reaches_step _ taken)
  apply reaches_step .transfer
  rw [moved]
  simp only [idleStart, start, early, ↓reduceIte, List.nil_append, flying, Nat.zero_add]

/-- Behind its call a READ that is in flight is checked, and that is not its data. -/
theorem read_checked_early (request : FileRequest) (after : GeneratorState)
    (read : request.operation = .read) (some_ : 0 < request.size)
    (checked : cfg.file.validate = true) :
    ∃ t, Reaches (step cfg tid) (flying after request .initial) t ∧ ¬ BufferKept t := by
  refine ⟨_, reaches_step .validate rfl, fun kept => ?_⟩
  have own := kept.own 0 .initial (by
    simp [validate, flying, checked, read, some_])
  cases own

theorem flying_idle (request : FileRequest) (after : GeneratorState) (buffer : Content)
    (unchecked : ¬ (cfg.file.validate = true ∧ request.operation = .read)) :
    Reaches (step cfg tid) (flying after request buffer)
      { flying after request buffer with place := .idle } := by
  apply reaches_step .validate
  simp only [step, flying, validate, if_neg unchecked]

theorem reads_overlap (request : FileRequest) (after : GeneratorState) (buffer : Content)
    (some_ : 0 < request.size) (ready : Ready cfg.file tid after)
    (clean : after.isDirty = false) (unchecked : cfg.file.validate = false)
    (bytes : 0 < dataSize cfg.file) (reads writes : Nat)
    (read : request.operation = .read)
    (reading : dataOperation cfg.file reads writes = .read) :
    ∃ t, Reaches (step cfg tid) (flying after request buffer) t ∧ ¬ BufferKept t := by
  have free : ¬ (cfg.file.validate = true ∧ request.operation = .read) := by
    rw [unchecked]
    exact fun both => by cases both.1
  obtain ⟨second, later, made, data⟩ := data_next bytes ready (clean_not_due clean) reads writes
  have taken := next_step cfg tid (s := { flying after request buffer with place := .idle })
    rfl reads writes _ second later made data.target
  have kind : second.operation = .read := data.kind.trans reading
  rw [prepare, kind] at taken
  have moved := transfer_step cfg tid
    (s := { flying later request buffer with place := .prepared second })
    second rfl data.some_
  refine ⟨_, reaches_trans (flying_idle cfg tid request after buffer free)
    (reaches_trans (reaches_step _ taken) (reaches_trans (reaches_step .transfer moved)
      (reaches_step (.complete 0) rfl))), fun kept => ?_⟩
  have whole := kept.whole
  simp [complete, flying, read, Oper.uses, some_, data.some_] at whole

/-- The block of the next WRITE is filled in while the first one is in flight. -/
theorem fill_overlaps (request : FileRequest) (after : GeneratorState) (buffer : Content)
    (some_ : 0 < request.size) (ready : Ready cfg.file tid after)
    (notDue : ¬ FsyncRounds.RoundDue cfg.file after) (checked : cfg.file.validate = true)
    (bytes : 0 < dataSize cfg.file) (writing : dataOperation cfg.file 0 0 = .write) :
    ∃ t, Reaches (step cfg tid) { flying after request buffer with place := .idle } t ∧
      ¬ BufferKept t := by
  obtain ⟨second, later, made, data⟩ := data_next bytes ready notDue 0 0
  have taken := next_step cfg tid (s := { flying after request buffer with place := .idle })
    rfl 0 0 _ second later made data.target
  refine ⟨_, reaches_step _ taken, fun kept => ?_⟩
  have whole := kept.whole
  simp [prepare, data.kind, writing, checked, fill, flying, Oper.uses, some_] at whole

theorem reading_breaks (two : 1 < cfg.backlog) (reading : ReadsData cfg.file)
    (bytes : 0 < dataSize cfg.file) :
    ∃ t, Reaches (step cfg tid) idleStart t ∧ ¬ BufferKept t := by
  obtain ⟨reads, writes, read⟩ := reads_come reading
  obtain ⟨request, after, buffer, data, unfilled, reached⟩ := first_flies cfg tid two bytes
    reads writes (fun _ write => by
      rw [read] at write
      cases write)
  have kind : request.operation = .read := data.kind.trans read
  cases checked : cfg.file.validate with
  | true =>
      rw [unfilled kind] at reached
      obtain ⟨t, later, broken⟩ := read_checked_early cfg tid request after kind data.some_
        checked
      exact ⟨t, reaches_trans reached later, broken⟩
  | false =>
      obtain ⟨t, later, broken⟩ := reads_overlap cfg tid request after buffer data.some_
        data.ready (data.dirty read) checked bytes reads writes kind read
      exact ⟨t, reaches_trans reached later, broken⟩

theorem writing_breaks (two : 1 < cfg.backlog) (writing : ¬ ReadsData cfg.file)
    (checked : cfg.file.validate = true) (long : trailerLength ≤ dataSize cfg.file) :
    ∃ t, Reaches (step cfg tid) idleStart t ∧ ¬ BufferKept t := by
  have bytes : 0 < dataSize cfg.file := by
    unfold trailerLength at long
    omega
  have write := writes_come writing
  obtain ⟨request, after, buffer, data, _, reached⟩ := first_flies cfg tid two bytes 0 0
    (fun _ _ => long)
  have kind : request.operation = .write := data.kind.trans write
  have called := reaches_trans reached (flying_idle cfg tid request after buffer (by simp [kind]))
  by_cases due : FsyncRounds.RoundDue cfg.file after
  · -- the fsyncs of the round come first, and the WRITE stays in flight
    have operation (sequential : FileLocking.Sequential cfg.file) :
        seqOperation cfg.file = .write := by
      rwa [dataOperation, if_pos sequential] at write
    have someFiles := cfg.file.sizes.someFiles
    have first : after.fsyncedFile = 0 := data.fsynced
    have synced := round_reaches cfg tid
      (s := { flying after request buffer with place := .idle }) (cfg.file.sizes.numFiles - 1)
      rfl operation due (by simp only [flying, first]; omega)
    have ready : Ready cfg.file tid { after with fsyncedFile := 0, isDirty := false } :=
      ⟨data.ready.file, data.ready.after, data.ready.before, data.ready.free⟩
    obtain ⟨t, later, broken⟩ := fill_overlaps cfg tid request _ buffer
      data.some_ ready (clean_not_due rfl) checked bytes write
    exact ⟨t, reaches_trans called (reaches_trans synced later), broken⟩
  · obtain ⟨t, later, broken⟩ := fill_overlaps cfg tid request after buffer
      data.some_ data.ready due checked bytes write
    exact ⟨t, reaches_trans called later, broken⟩

theorem buffer_kept_iff (cfg : AsyncConfig) (tid : Nat) :
    (∀ perThread schedule, Always (step cfg tid) BufferKept (start perThread) schedule) ↔
      cfg.backlog = 1 ∨ BufferSpared cfg.file := by
  constructor
  · intro kept
    by_contra neither
    obtain ⟨large, used⟩ := not_or.mp neither
    have some_ := cfg.someBacklog
    have two : 1 < cfg.backlog := by omega
    have broken : ∃ t, Reaches (step cfg tid) idleStart t ∧ ¬ BufferKept t := by
      by_cases reading : ReadsData cfg.file
      · by_cases bytes : 0 < dataSize cfg.file
        · exact reading_breaks cfg tid two reading bytes
        · exact absurd ⟨fun _ => not_lt.mp bytes, fun _ => by
            unfold trailerLength
            omega⟩ used
      · by_cases long : cfg.file.validate = true ∧ trailerLength ≤ dataSize cfg.file
        · exact writing_breaks cfg tid two reading long.1 long.2
        · exact absurd ⟨fun reads => absurd reads reading, fun checked =>
            not_le.mp fun enough => long ⟨checked, enough⟩⟩ used
    obtain ⟨t, reached, broken⟩ := broken
    exact broken (good_of_reaches (fun schedule => kept _ schedule) reached)
  · rintro (one | spared) perThread schedule
    · exact one_at_a_time_kept one perThread schedule
    · exact spared_kept spared perThread schedule

/-- `--file-num=3 --file-total-size=48 --file-block-size=16 --file-test-mode=rndrd
--file-io-mode=async --validate`. -/
def asyncOptions : FileOptions :=
  { tailOptions with totalSize := 48, blockSize := 16, ioMode := some "async" }

theorem default_backlog_unsigned : 128 < 2 ^ 32 := by decide

theorem sixteen_bytes : 16 < 2 ^ 31 := by decide

theorem all_bytes : 48 < 2 ^ 63 := by decide

/-- With the default `--file-async-backlog=128`. -/
def asyncReads : AsyncConfig :=
  { file := { tailConfig with
      sizes := { tailConfig.sizes with
        totalSize := 48, blockSize := 16, someBytes := Nat.succ_pos 47, totalSigned := all_bytes
        someBlock := Nat.succ_pos 15, blockInt := sixteen_bytes }
      ioMode := .async, requestSize := 16, validate := true }
    backlog := 128, async := rfl, someBacklog := Nat.succ_pos 127
    backlogUnsigned := default_backlog_unsigned }

theorem checked_before_read :
    parseArguments "run" true 1 true asyncOptions = .ok asyncReads.file ∧
      (parseBacklog 128).map Subtype.val = .ok asyncReads.backlog ∧
      ∃ t, run (step asyncReads 0) (start fun _ => (0, -1))
        [.next 0 0 [firstDraw], .transfer, .validate] = some t ∧
        t.validated = [(0, .initial)] ∧ t.completed = [] ∧ ¬ BufferKept t := by
  refine ⟨by decide +kernel, rfl, ?_⟩
  have observed : (run (step asyncReads 0) (start fun _ => (0, -1))
      [.next 0 0 [firstDraw], .transfer, .validate]).map (fun t => (t.validated, t.completed)) =
      some ([(0, .initial)], []) := by decide +kernel
  obtain ⟨t, reached, same⟩ := Option.map_eq_some_iff.mp observed
  obtain ⟨checked, none_⟩ := Prod.mk.inj same
  refine ⟨t, reached, checked, none_, fun kept => ?_⟩
  have own := kept.own 0 .initial (by rw [checked]; exact List.mem_singleton_self _)
  cases own

end Overlap
end PteSysbench.AsyncBuffers
