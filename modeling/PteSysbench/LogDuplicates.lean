import PteSysbench.ActionSystem
import PteSysbench.LoggerBuffers
import Mathlib.Algebra.GroupWithZero.Nat

/-!
`text_handler_process` of sb_logger.c between any threads, and `log_done`. `text_buf` and
`text_cnt` are used under `text_mutex` only, so its section is one step; a message is
printed after it.
-/

namespace PteSysbench.LogDuplicates

open ActionSystem DbDriver LoggerBuffers OptionRegistry

/-! The handler. -/
section Handler

def level : Priority → Nat
  | .fatal => 0
  | .alert => 1
  | .warning => 2
  | .notice => 3
  | .info => 4
  | .debug => 5

/-- `log_msg_text_t`, of a text that fits its buffer. -/
structure Message where
  priority : Priority
  text : Text
  flags : Nat
  sized : text.length < 4096

def Message.mayRepeat (m : Message) : Bool := m.flags &&& allowDuplicates != 0

/-- A repeat line comes with the text it is about. -/
inductive Line where
  | message (m : Message)
  | repeated (count : Nat) (of_ : Text)

def Line.bytes : Line → List UInt8
  | .message m => bytesOf (getMsgPrefix m.priority ++ m.text)
  | .repeated count _ =>
      bytesOf (text "(last message repeated ") ++ decimal count ++ bytesOf (text " times)\n")

variable {Thread : Type*} [DecidableEq Thread]

/-- `pending` is what is printed after the mutex, in the order of the mutex. `submitted`
is history: the messages of enabled priority. -/
structure State (Thread : Type*) where
  initialized : Bool
  textBuf : Text
  textCnt : Nat
  pending : List (Thread × Message)
  output : List Line
  submitted : List Message

def start : State Thread :=
  { initialized := true, textBuf := [], textCnt := 0, pending := [], output := []
    submitted := [] }

/-- The message printed before the counter is reset. -/
def flush (s : State Thread) : List Line :=
  if 0 < s.textCnt then [.repeated s.textCnt s.textBuf] else []

def textHandlerProcess (verbosity : Nat) (w : Thread) (m : Message) (s : State Thread) :
    State Thread :=
  if verbosity < level m.priority then s
  else if m.mayRepeat then { s with pending := s.pending ++ [(w, m)] }
  else if s.textBuf = m.text then { s with textCnt := (s.textCnt + 1) % 2 ^ 32 }
  else
    -- `strncpy` copies the whole text, which is shorter than the buffer
    { s with
      output := s.output ++ flush s
      textCnt := 0
      textBuf := m.text
      pending := s.pending ++ [(w, m)] }

def printMessage (w : Thread) (s : State Thread) : Option (State Thread) :=
  (s.pending.find? fun entry => entry.1 = w).map fun entry =>
    { s with
      output := s.output ++ [.message entry.2]
      pending := s.pending.eraseP fun entry => entry.1 = w }

/-- `ops.done` of `text_handler`: there is none. -/
def textHandlerDone : Option (State Thread → State Thread) := none

def logDone (s : State Thread) : State Thread :=
  let s := match textHandlerDone with
    | some done => done s
    | none => s
  { s with initialized := false }

inductive Action (Thread : Type*) where
  | process (w : Thread) (m : Message)
  | print (w : Thread)
  | done

/-- The messages of enabled priority, with one more that a thread comes with. -/
def submit (verbosity : Nat) (m : Message) (submitted : List Message) : List Message :=
  if verbosity < level m.priority then submitted else submitted ++ [m]

/-- A thread prints its message before it comes with another one, and `log_done` is called
when all of them have returned. -/
def step (verbosity : Nat) (s : State Thread) : Action Thread → Option (State Thread)
  | .process w m =>
      if s.initialized ∧ ∀ entry ∈ s.pending, entry.1 ≠ w then
        some { textHandlerProcess verbosity w m s with
          submitted := submit verbosity m s.submitted }
      else none
  | .print w => printMessage w s
  | .done => if s.initialized ∧ s.pending = [] then some (logDone s) else none
end Handler

/-! What the output says. -/
section Output

def Line.accounts (t : Text) : Line → Nat
  | .message m => if m.text = t then 1 else 0
  | .repeated count of_ => if of_ = t then count else 0

def accounted (output : List Line) (t : Text) : Nat := (output.map (Line.accounts t)).sum

/-- The text of a line that suppressed its repetitions. -/
def Line.deduplicated : Line → Option Text
  | .message m => if m.mayRepeat then none else some m.text
  | .repeated _ _ => none

def deduplicated (output : List Line) : List Text := output.filterMap Line.deduplicated

/-- Before each repeat line the last de-duplicated text is the one it is about. -/
def Ordered (output : List Line) : Prop :=
  ∀ before count of_ after, output = before ++ .repeated count of_ :: after →
    (deduplicated before).getLast? = some of_

def count (t : Text) (messages : List Message) : Nat := (messages.map Message.text).count t

/-- Repeat lines are in their places and, when the log is done, no message is lost. -/
structure Faithful {Thread : Type*} (s : State Thread) : Prop where
  ordered : Ordered s.output
  all : s.initialized = false → ∀ t, accounted s.output t = count t s.submitted

variable {Thread : Type*}

/-- De-duplicated messages that are still to be printed, in the order of the mutex. -/
def waiting (pending : List (Thread × Message)) : List Text :=
  (pending.filter fun entry => !entry.2.mayRepeat).map fun entry => entry.2.text

/-- Before a message is taken up: a repetition can be counted, and is one of a message;
nothing waits that a repeat line would overtake. -/
def TakesUp (s : State Thread) (m : Message) : Prop :=
  if s.textBuf = m.text then
    s.textCnt + 1 < 2 ^ 32 ∧ (m.text = [] → ∃ earlier ∈ s.submitted, earlier.mayRepeat = false)
  else 0 < s.textCnt → waiting s.pending = []

/-- Messages are printed in their order, and nothing waits in the counter at the end. -/
def Guard [DecidableEq Thread] (verbosity : Nat) (s : State Thread) : Action Thread → Prop
  | .process _ m => level m.priority ≤ verbosity → m.mayRepeat = false → TakesUp s m
  | .print w => ∀ entry, s.pending.find? (fun entry => entry.1 = w) = some entry →
      entry.2.mayRepeat = false →
        waiting (s.pending.takeWhile fun entry => entry.1 ≠ w) = []
  | .done => s.textCnt = 0
end Output

/-! Lines and messages in their order. -/
section Lines
variable {Thread : Type*} (output : List Line) (line : Line) (t : Text) (m : Message)

theorem ordered_concat (ordered : Ordered output) (placed : ∀ count of_,
    line = .repeated count of_ → (deduplicated output).getLast? = some of_) :
    Ordered (output ++ [line]) := by
  intro before count of_ after split
  rcases List.eq_nil_or_concat' after with rfl | ⟨more, last, rfl⟩
  · obtain ⟨rfl, same⟩ := List.append_inj' split rfl
    exact placed count of_ (List.singleton_inj.mp same)
  · rw [← List.cons_append, ← List.append_assoc] at split
    exact ordered before count of_ more (List.append_inj_left' split rfl)

theorem deduplicated_concat : deduplicated (output ++ [line]) =
    deduplicated output ++ line.deduplicated.toList := by
  rw [deduplicated, List.filterMap_append]
  cases one : line.deduplicated with
  | none => simp [deduplicated, one]
  | some text => simp [deduplicated, one]

theorem accounted_concat : accounted (output ++ [line]) t = accounted output t + line.accounts t := by
  simp [accounted]

theorem count_append (first second : List Message) :
    count t (first ++ second) = count t first + count t second := by
  rw [count, List.map_append, List.count_append]
  rfl

theorem count_singleton : count t [m] = if m.text = t then 1 else 0 := by
  simp [count, List.count_singleton]

theorem waiting_append (first second : List (Thread × Message)) :
    waiting (first ++ second) = waiting first ++ waiting second := by
  simp [waiting]

theorem waiting_may_repeat (w : Thread) (free : m.mayRepeat = true) : waiting [(w, m)] = [] := by
  simp [waiting, free]

theorem waiting_deduplicated (w : Thread) (held : m.mayRepeat = false) :
    waiting [(w, m)] = [m.text] := by
  simp [waiting, held]
end Lines

/-! What holds between the steps. -/
section Invariant
variable {Thread : Type*} {verbosity : Nat} {s : State Thread} {w : Thread} {m : Message}

/-- De-duplicated texts, in the order of the mutex. -/
def taken (s : State Thread) : List Text := deduplicated s.output ++ waiting s.pending

structure Inv (s : State Thread) : Prop where
  ordered : Ordered s.output
  last : s.textBuf = (taken s).getLast?.getD []
  fresh : taken s = [] → s.textCnt = 0
  seen : (∃ earlier ∈ s.submitted, earlier.mayRepeat = false) → taken s ≠ []
  all : ∀ t, count t s.submitted = accounted s.output t + count t (s.pending.map Prod.snd) +
    if s.textBuf = t then s.textCnt else 0
  ended : s.initialized = false → s.pending = [] ∧ s.textCnt = 0

theorem seen_concat (inv : Inv s) (free : m.mayRepeat = true) :
    (∃ earlier ∈ s.submitted ++ [m], earlier.mayRepeat = false) → taken s ≠ [] := by
  rintro ⟨earlier, member, held⟩
  rcases List.mem_append.mp member with old | new
  · exact inv.seen ⟨earlier, old, held⟩
  · rw [List.mem_singleton.mp new, free] at held
    cases held

theorem still_running {P : Prop} (running : s.initialized = true) (ended : s.initialized = false) :
    P := nomatch running.symm.trans ended

theorem allowed_keeps (inv : Inv s) (running : s.initialized = true)
    (free : m.mayRepeat = true) :
    Inv { s with submitted := s.submitted ++ [m], pending := s.pending ++ [(w, m)] } := by
  have same : taken { s with submitted := s.submitted ++ [m], pending := s.pending ++ [(w, m)] } =
      taken s := by
    rw [taken, waiting_append, waiting_may_repeat m w free, List.append_nil]
    rfl
  constructor
  · exact inv.ordered
  · rw [same]
    exact inv.last
  · rw [same]
    exact inv.fresh
  · rw [same]
    exact seen_concat inv free
  · intro t
    have before := inv.all t
    simp only [List.map_append, List.map_cons, List.map_nil, count_append]
    omega
  · exact still_running running

theorem repetition_keeps (inv : Inv s) (running : s.initialized = true)
    (same : s.textBuf = m.text) (small : s.textCnt + 1 < 2 ^ 32)
    (printed : m.text = [] → ∃ earlier ∈ s.submitted, earlier.mayRepeat = false) :
    Inv { s with submitted := s.submitted ++ [m], textCnt := (s.textCnt + 1) % 2 ^ 32 } := by
  -- before the first message `text_buf` is empty, as only an empty text would be
  have some_ : taken s ≠ [] := by
    intro none_
    have empty := inv.last
    rw [none_] at empty
    exact inv.seen (printed (same.symm.trans empty)) none_
  constructor
  · exact inv.ordered
  · exact inv.last
  · intro none_
    exact absurd none_ some_
  · intro _
    exact some_
  · intro t
    have before := inv.all t
    simp only [count_append, count_singleton, Nat.mod_eq_of_lt small, ← same]
    split
    · rename_i here
      rw [if_pos here] at before
      omega
    · rename_i other
      rw [if_neg other] at before
      exact before
  · exact still_running running

theorem flush_ordered (inv : Inv s) (behind : 0 < s.textCnt → waiting s.pending = []) :
    Ordered (s.output ++ flush s) := by
  rw [flush]
  split
  · rename_i some_
    apply ordered_concat _ _ inv.ordered
    intro count of_ line
    obtain ⟨rfl, rfl⟩ := Line.repeated.inj line
    have none_ := behind some_
    have last := inv.last
    have fresh := inv.fresh
    rw [taken, none_, List.append_nil] at last fresh
    cases shown : (deduplicated s.output).getLast? with
    | none => exact absurd (fresh (List.getLast?_eq_none_iff.mp shown)) (Nat.ne_of_gt some_)
    | some text => rw [last, shown, Option.getD_some]
  · rw [List.append_nil]
    exact inv.ordered

theorem flush_deduplicated : deduplicated (s.output ++ flush s) = deduplicated s.output := by
  rw [flush]
  split
  · rw [deduplicated_concat]
    exact List.append_nil _
  · rw [List.append_nil]

theorem flush_accounted (t : Text) : accounted (s.output ++ flush s) t =
    accounted s.output t + if s.textBuf = t then s.textCnt else 0 := by
  rw [flush]
  split
  · exact accounted_concat _ _ _
  · rename_i none_
    rw [List.append_nil, Nat.eq_zero_of_not_pos none_, ite_self, Nat.add_zero]

theorem change_keeps (inv : Inv s) (running : s.initialized = true) (held : m.mayRepeat = false)
    (behind : 0 < s.textCnt → waiting s.pending = []) :
    Inv { s with
      submitted := s.submitted ++ [m]
      output := s.output ++ flush s
      textCnt := 0
      textBuf := m.text
      pending := s.pending ++ [(w, m)] } := by
  have more : taken { s with
      submitted := s.submitted ++ [m]
      output := s.output ++ flush s
      textCnt := 0
      textBuf := m.text
      pending := s.pending ++ [(w, m)] } = taken s ++ [m.text] := by
    rw [taken, waiting_append, waiting_deduplicated m w held, flush_deduplicated,
      ← List.append_assoc]
    rfl
  constructor
  · exact flush_ordered inv behind
  · rw [more, List.getLast?_concat, Option.getD_some]
  · intro _
    rfl
  · rw [more]
    exact fun _ => List.concat_ne_nil _ _
  · intro t
    have before := inv.all t
    simp only [List.map_append, List.map_cons, List.map_nil, count_append, flush_accounted,
      ite_self]
    omega
  · exact still_running running

theorem process_keeps (inv : Inv s) (running : s.initialized = true)
    (taken : level m.priority ≤ verbosity → m.mayRepeat = false → TakesUp s m) :
    Inv { textHandlerProcess verbosity w m s with
      submitted := submit verbosity m s.submitted } := by
  rw [textHandlerProcess, submit]
  by_cases hidden : verbosity < level m.priority
  · rw [if_pos hidden, if_pos hidden]
    exact inv
  · rw [if_neg hidden, if_neg hidden]
    have taking := taken (Nat.le_of_not_lt hidden)
    cases kind : m.mayRepeat with
    | true => exact allowed_keeps inv running kind
    | false =>
        have takes := taking kind
        rw [TakesUp] at takes
        by_cases same : s.textBuf = m.text
        · rw [if_pos same] at takes
          simp only [if_pos same]
          exact repetition_keeps inv running same takes.1 takes.2
        · rw [if_neg same] at takes
          simp only [if_neg same]
          exact change_keeps inv running kind takes

/-- What is lost when the log is done is what stands in the counter. -/
theorem done_accounted_iff (inv : Inv s) (printed : s.pending = []) :
    (∀ text, accounted s.output text = count text s.submitted) ↔ s.textCnt = 0 := by
  have all := inv.all
  rw [printed] at all
  constructor
  · intro accounted
    have here := all s.textBuf
    rw [accounted, if_pos rfl] at here
    change _ = _ + 0 + _ at here
    omega
  · intro none_ text
    rw [all text, none_, ite_self]
    rfl

theorem start_inv : Inv (start : State Thread) := by
  constructor
  · intro before count of_ after split
    exact absurd (congrArg List.length split) (by simp [start])
  · rfl
  · intro _
    rfl
  · rintro ⟨earlier, member, _⟩
    cases member
  · intro text
    change 0 = 0 + 0 + if [] = text then 0 else 0
    rw [ite_self]
  · intro ended
    cases ended

theorem inv_faithful (s : State Thread) (inv : Inv s) : Faithful s := by
  refine ⟨inv.ordered, fun ended => ?_⟩
  obtain ⟨printed, none_⟩ := inv.ended ended
  exact (done_accounted_iff inv printed).mpr none_
end Invariant

/-! Runs of any threads. -/
section Runs
variable {Thread : Type*} [DecidableEq Thread] {verbosity : Nat} {s t : State Thread}
  {w : Thread} {m : Message}

/-- The message a thread prints, and those before and after it. -/
theorem print_cases (printed : printMessage w s = some t) :
    ∃ before m after, s.pending = before ++ (w, m) :: after ∧
      s.pending.find? (fun entry => entry.1 = w) = some (w, m) ∧
      s.pending.takeWhile (fun entry => entry.1 ≠ w) = before ∧
      t = { s with output := s.output ++ [.message m], pending := before ++ after } := by
  obtain ⟨⟨owner, m⟩, found, rfl⟩ := Option.map_eq_some_iff.mp printed
  obtain ⟨mine, before, after, split, others⟩ := List.find?_eq_some_iff_append.mp found
  obtain rfl := of_decide_eq_true mine
  have apart : ∀ entry ∈ before, decide (entry.1 ≠ owner) = true := by
    intro entry member
    have other := others entry member
    simpa using other
  refine ⟨before, m, after, split, found, ?_, ?_⟩
  · rw [split, List.takeWhile_append_of_pos apart, List.takeWhile_cons_of_neg (by simp),
      List.append_nil]
  · rw [split, List.eraseP_append_right, List.eraseP_cons_of_pos (by simp)]
    intro entry member
    simpa using apart entry member

theorem print_keeps (inv : Inv s) (printed : printMessage w s = some t)
    (guard : Guard verbosity s (.print w)) : Inv t := by
  obtain ⟨before, m, after, split, found, earlier, rfl⟩ := print_cases printed
  -- a de-duplicated message is the first of those that wait
  have order := guard (w, m) found
  rw [earlier] at order
  have same : taken { s with
      output := s.output ++ [.message m], pending := before ++ after } = taken s := by
    rw [taken, taken, deduplicated_concat, Line.deduplicated, split, waiting_append,
      ← List.singleton_append, waiting_append, waiting_append]
    cases kind : m.mayRepeat with
    | true => rw [waiting_may_repeat m w kind, if_pos rfl, Option.toList_none, List.append_nil,
        List.nil_append]
    | false => rw [waiting_deduplicated m w kind, order kind, if_neg (by decide),
        Option.toList_some, List.nil_append, List.nil_append, List.append_assoc]
  constructor
  · exact ordered_concat _ _ inv.ordered fun _ _ line => nomatch line
  · rw [same]
    exact inv.last
  · rw [same]
    exact inv.fresh
  · rw [same]
    exact inv.seen
  · intro text
    have before := inv.all text
    rw [split] at before
    simp only [List.map_append, List.map_cons, count_append, accounted_concat,
      ← List.singleton_append (l := List.map _ _), count_singleton] at before ⊢
    simp only [Line.accounts]
    omega
  · intro ended
    have none_ := (inv.ended ended).1
    rw [split] at none_
    exact absurd none_ (by simp)

theorem step_keeps (s : State Thread) (a : Action Thread) (t : State Thread) (inv : Inv s)
    (guard : Guard verbosity s a) (stepped : step verbosity s a = some t) : Inv t := by
  cases a with
  | process w m =>
      obtain ⟨⟨running, _⟩, moved⟩ := Option.ite_none_right_eq_some.mp stepped
      obtain rfl := Option.some.inj moved
      exact process_keeps inv running guard
  | print w => exact print_keeps inv stepped guard
  | done =>
      obtain ⟨⟨_, printed⟩, moved⟩ := Option.ite_none_right_eq_some.mp stepped
      obtain rfl := Option.some.inj moved
      exact ⟨inv.ordered, inv.last, inv.fresh, inv.seen, inv.all, fun _ => ⟨printed, guard⟩⟩

/-- In a run that prints in the order of the mutex and stops with an empty counter, no
message is lost and every repeat line stands in its place. -/
theorem repeats_accounted (verbosity : Nat) (schedule : List (Action Thread))
    (guarded : Guarded (step verbosity) (Guard verbosity) start schedule) :
    Always (step verbosity) Faithful (start : State Thread) schedule :=
  always_mono inv_faithful _ _ (guarded_keeps step_keeps start schedule start_inv guarded)

def message (words : String) (sized : (text words).length < 4096) : Message :=
  { priority := .fatal, text := text words, flags := 0, sized := sized }

theorem error_sized : (text "error\n").length < 4096 := by decide

theorem other_sized : (text "other\n").length < 4096 := by decide

def errorMessage : Message := message "error\n" error_sized

def otherMessage : Message := message "other\n" other_sized

/-- An error of both threads, and another message of the first. -/
def twoThreads : List (Action Bool) :=
  [.process false errorMessage, .print false, .process true errorMessage,
    .process false otherMessage, .print false, .done]

theorem two_threads_guarded : Guarded (step 3) (Guard 3) start twoThreads := by
  rintro _ ⟨rfl⟩
  refine ⟨fun _ _ some_ => absurd some_ (Nat.lt_irrefl 0), ?_⟩
  rintro _ ⟨rfl⟩
  refine ⟨fun _ _ _ => rfl, ?_⟩
  rintro _ ⟨rfl⟩
  refine ⟨fun _ _ => ⟨by decide, fun none_ => nomatch none_⟩, ?_⟩
  rintro _ ⟨rfl⟩
  refine ⟨fun _ _ _ => rfl, ?_⟩
  rintro _ ⟨rfl⟩
  refine ⟨fun _ _ _ => rfl, ?_⟩
  rintro _ ⟨rfl⟩
  exact ⟨rfl, trivial⟩

theorem repeats_accounted_two_threads :
    Guarded (step 3) (Guard 3) start twoThreads ∧
      Always (step 3) Faithful (start : State Bool) twoThreads :=
  ⟨two_threads_guarded, repeats_accounted 3 twoThreads two_threads_guarded⟩

example : ((run (step 3) start twoThreads).map fun s => s.output.map Line.bytes) =
    some ([text "FATAL: error\n", text "(last message repeated 1 times)\n",
      text "FATAL: other\n"].map bytesOf) := by decide

/-- An error that repeats until the program stops is in no line, and a repeat line may
overtake the message it is about. -/
theorem repetitions_unfaithful :
    ¬ Always (step 3) Faithful (start : State (Fin 1))
      [.process 0 errorMessage, .print 0, .process 0 errorMessage, .done] ∧
    ¬ Always (step 3) Faithful (start : State (Fin 3))
      [.process 0 errorMessage, .process 1 errorMessage, .process 2 otherMessage] := by
  constructor
  · intro all
    have ended := all.2 _ rfl |>.2 _ rfl |>.2 _ rfl |>.2 _ rfl
    exact absurd (ended.all rfl errorMessage.text) (by decide)
  · intro all
    have ended := all.2 _ rfl |>.2 _ rfl |>.2 _ rfl
    exact absurd (ended.ordered [] 1 errorMessage.text [] rfl) (by decide)
end Runs
end PteSysbench.LogDuplicates
