import PteSysbench.ArgumentParser

/-!
Which value an option ends with: the one of its last occurrence on the command
line, else the one of the configuration file, else its default. The passes over
`argv` set them in another order.
-/

namespace PteSysbench.OptionPrecedence

open LastWriter OptionRegistry ArgumentParser

variable {fs : FileSystem} {build : Build} {testArgs : List Arg} {argv : List Text} {key : Text}

/-! What the command line, the configuration files and the sets say of an option. -/
section Sources

def lastOccurrence (key : Text) (occs : List Occurrence) : Option Occurrence :=
  (occs.filter fun occ => decide (occ.name = key)).getLast?

/-- The values in the files that `--config-file` names; of several files, the last
one that sets the option. -/
def configValues (fs : FileSystem) (argv : List Text) (key : Text) : Option (List Text) :=
  lastBulk key (configBulks fs (occurrences argv))

def lastArg (key : Text) (args : List Arg) : Option Arg :=
  (args.filter fun arg => decide (convertDashes arg.name = key)).getLast?

/-- The default of the set that registers the option last. -/
def registeredDefault (build : Build) (testArgs : List Arg) (key : Text) : Option (List Text) :=
  (lastArg key (baseArgs build ++ testArgs)).map fun arg => (argCommand arg).values

def expectedValues (fs : FileSystem) (build : Build) (testArgs : List Arg) (argv : List Text)
    (key : Text) : Option (List Text) :=
  match lastOccurrence key (occurrences argv) with
  | some occ => optionValues (finalTypes build testArgs key) occ.value
  | none => (configValues fs argv key).or (registeredDefault build testArgs key)

/-- The value from a configuration file that the first pass reads at the last
occurrence of the option it parses, or after it. -/
def lateConfigValues (fs : FileSystem) (build : Build) (argv : List Text) (key : Text) :
    Option (List Text) :=
  late key ((firstPass fs build [] (occurrences argv)).map (Command.assignment fs))

/-- The value from a file that an option of the test names, when it is read after the
second pass has set the option. -/
def lateTestValues (fs : FileSystem) (build : Build) (testArgs : List Arg) (argv : List Text)
    (key : Text) : Option (List Text) :=
  late key ((secondPass fs build testArgs argv).map (Command.assignment fs))

/-- The order of the passes leaves the option with its expected values. -/
@[mk_iff]
structure PrecedenceKept (fs : FileSystem) (build : Build) (testArgs : List Arg)
    (argv : List Text) (key : Text) : Prop where
  /-- A file that an option of the test names has the last word: it agrees. -/
  testFile : ∀ values, lateTestValues fs build testArgs argv key = some values →
    expectedValues fs build testArgs argv key = some values
  /-- The second pass parses an occurrence: the last one, or one that agrees. -/
  parsed : lateTestValues fs build testArgs argv key = none →
    ∀ occ last, lastOccurrence key (unparsed fs build argv) = some occ →
      lastOccurrence key (occurrences argv) = some last →
      optionValues (finalTypes build testArgs key) occ.value =
        optionValues (finalTypes build testArgs key) last.value
  /-- It parses none and the test registers the option again, over the command line. -/
  overCommandLine : lateTestValues fs build testArgs argv key = none →
    lastOccurrence key (unparsed fs build argv) = none → (lastArg key testArgs).isSome →
      ∀ last, lastOccurrence key (occurrences argv) = some last →
        registeredDefault build testArgs key =
          optionValues (finalTypes build testArgs key) last.value
  /-- The test registers the option again, over a configuration file. -/
  overFile : lateTestValues fs build testArgs argv key = none → (lastArg key testArgs).isSome →
    lastOccurrence key (occurrences argv) = none →
      ∀ values, configValues fs argv key = some values →
        registeredDefault build testArgs key = some values
  /-- A configuration file is read behind the last occurrence on the command line. -/
  fileBehind : lateTestValues fs build testArgs argv key = none →
    lastOccurrence key (unparsed fs build argv) = none → lastArg key testArgs = none →
      ∀ last values, lastOccurrence key (occurrences argv) = some last →
        lateConfigValues fs build argv key = some values →
        optionValues (finalTypes build testArgs key) last.value = some values

end Sources

/-! The passes, seen from one option. -/
section Views

theorem last_occurrence_none (occs : List Occurrence) :
    lastOccurrence key occs = none ↔ ∀ occ ∈ occs, occ.name ≠ key := by
  simp [lastOccurrence]

theorem last_occurrence_mem (occs : List Occurrence) (occ : Occurrence)
    (last : lastOccurrence key occs = some occ) : occ ∈ occs ∧ occ.name = key := by
  have member := List.mem_of_getLast? last
  simpa using List.mem_filter.mp member

theorem last_occurrence_cons (occ : Occurrence) (rest : List Occurrence) :
    lastOccurrence key (occ :: rest) =
      (lastOccurrence key rest).or (if occ.name = key then some occ else none) := by
  by_cases same : occ.name = key
  · rw [lastOccurrence, List.filter_cons_of_pos (by simpa using same), List.getLast?_cons,
      ← lastOccurrence]
    cases lastOccurrence key rest <;> simp [same]
  · rw [lastOccurrence, List.filter_cons_of_neg (by simpa using same), ← lastOccurrence]
    simp [same]

theorem left_over_mem (before occs : List Occurrence) (occ : Occurrence)
    (member : occ ∈ leftOver fs build before occs) : occ ∈ occs := by
  induction occs generalizing before with
  | nil => exact member
  | cons first rest ih =>
      rw [leftOver] at member
      split at member
      · exact List.mem_cons_of_mem first (ih _ member)
      · rcases List.mem_cons.mp member with rfl | inRest
        · exact List.mem_cons_self
        · exact List.mem_cons_of_mem first (ih _ inRest)

/-- Where the first pass leaves no occurrence of the option, it has set it to the last. -/
theorem first_pass_assigned (before occs : List Occurrence)
    (allTaken : ∀ occ ∈ leftOver fs build before occs, occ.name ≠ key) :
    (∀ occ ∈ occs, occ.name = key → (optionValues (baseTypes build key) occ.value).isSome = true) ∧
    assigned key ((firstPass fs build before occs).map (Command.assignment fs)) =
      (lastOccurrence key occs).map fun occ =>
        (optionValues (baseTypes build key) occ.value).getD [] := by
  induction occs generalizing before with
  | nil => exact ⟨by simp, rfl⟩
  | cons occ rest ih =>
      have inRest : ∀ other ∈ leftOver fs build (before ++ [occ]) rest, other.name ≠ key := by
        intro other member
        apply allTaken other
        rw [leftOver]
        split
        · exact member
        · exact List.mem_cons_of_mem occ member
      obtain ⟨taken, values⟩ := ih (before ++ [occ]) inRest
      rw [last_occurrence_cons]
      by_cases same : occ.name = key
      · have here : takenFirst fs build before occ = true := by
          by_contra skipped
          apply allTaken occ _ same
          rw [leftOver, if_neg skipped]
          exact List.mem_cons_self
        obtain ⟨isKnown, accepted⟩ := Bool.and_eq_true_iff.mp here
        constructor
        · intro other member named
          rcases List.mem_cons.mp member with rfl | later
          · rwa [same] at accepted
          · exact taken other later named
        · rw [firstPass, if_pos isKnown, List.map_cons, assigned, values]
          cases lastOccurrence key rest <;>
            simp [same, Command.assignment, Command.values, Occurrence.command]
      · have others : assigned key ((firstPass fs build before (occ :: rest)).map
            (Command.assignment fs)) =
            assigned key ((firstPass fs build (before ++ [occ]) rest).map
              (Command.assignment fs)) := by
          rw [firstPass]
          split
          · simp [assigned, Command.assignment, Occurrence.command, same]
          · rfl
        constructor
        · intro other member named
          rcases List.mem_cons.mp member with rfl | later
          · exact absurd named same
          · exact taken other later named
        · rw [others, values]
          simp [same]

/-- The files of the first pass are the configuration files of the command line. -/
theorem first_pass_bulks (before occs : List Occurrence) :
    lastBulk key (((firstPass fs build before occs).map (Command.assignment fs)).map
      Assignment.bulk) = lastBulk key (configBulks fs occs) := by
  induction occs generalizing before with
  | nil => rfl
  | cons occ rest ih =>
      -- a later file wins against the one of this argument
      have one : lastBulk key (configBulks fs (occ :: rest)) =
          (lastBulk key (configBulks fs rest)).or
            ((configBulk fs occ).bind fun bulk => bulk key) := by
        cases read : configBulk fs occ <;> simp [configBulks, read, lastBulk]
      cases isKnown : known fs build before occ.name with
      | false =>
          rw [firstPass, isKnown, one, unknown_reads_nothing before occ isKnown]
          simpa using ih (before ++ [occ])
      | true =>
          rw [firstPass, if_pos isKnown, one, List.map_cons, List.map_cons, lastBulk,
            ih (before ++ [occ]), first_pass_bulk]

theorem first_pass_mem (before occs : List Occurrence) (command : Command)
    (member : command ∈ firstPass fs build before occs) :
    ∃ occ ∈ occs, command.name = occ.name := by
  induction occs generalizing before with
  | nil => cases member
  | cons occ rest ih =>
      rw [firstPass] at member
      split at member
      · rcases List.mem_cons.mp member with rfl | later
        · exact ⟨occ, List.mem_cons_self, rfl⟩
        · obtain ⟨other, inRest, named⟩ := ih _ later
          exact ⟨other, List.mem_cons_of_mem occ inRest, named⟩
      · obtain ⟨other, inRest, named⟩ := ih _ member
        exact ⟨other, List.mem_cons_of_mem occ inRest, named⟩

theorem first_pass_absent (absent : lastOccurrence key (occurrences argv) = none) :
    lateConfigValues fs build argv key = configValues fs argv key := by
  rw [lateConfigValues, late_eq_last_bulk, first_pass_bulks, configValues]
  intro a member
  obtain ⟨command, listed, rfl⟩ := List.mem_map.mp member
  obtain ⟨occ, present, named⟩ := first_pass_mem [] _ command listed
  intro same
  exact (last_occurrence_none _).mp absent occ present (named.symm.trans same)

theorem last_arg_append (first second : List Arg) :
    lastArg key (first ++ second) = (lastArg key second).or (lastArg key first) := by
  rw [lastArg, List.filter_append, List.getLast?_append, ← lastArg, ← lastArg]

theorem base_assigned (fs : FileSystem) (build : Build) (key : Text) :
    assigned key ((baseArgs build).map fun arg => (argCommand arg).assignment fs) =
      (lastArg key (baseArgs build)).map fun arg => (argCommand arg).values := by
  rw [assigned_map]
  rfl

theorem final_types_undeclared (undeclared : lastArg key testArgs = none) :
    finalTypes build testArgs key = baseTypes build key := by
  rcases declared_types_cases testArgs (baseTypes build) key with ⟨arg, member, named, _⟩ | same
  · rw [lastArg, List.getLast?_eq_none_iff, List.filter_eq_nil_iff] at undeclared
    exact absurd (by simpa using named) (undeclared arg member)
  · exact same.2

/-- Of the second pass, the parsed occurrences come after the defaults. -/
theorem second_pass_assigned (fs : FileSystem) (build : Build) (testArgs : List Arg)
    (argv : List Text) (key : Text) :
    assigned key ((secondPass fs build testArgs argv).map (Command.assignment fs)) =
      ((lastOccurrence key (unparsed fs build argv)).map fun occ =>
        (optionValues (finalTypes build testArgs key) occ.value).getD []).or
      ((lastArg key testArgs).map fun arg => (argCommand arg).values) := by
  have parsed : assigned key ((unparsed fs build argv).map
      (Command.assignment fs ∘ Occurrence.command (finalTypes build testArgs))) =
      (lastOccurrence key (unparsed fs build argv)).map fun occ =>
        (optionValues (finalTypes build testArgs key) occ.value).getD [] := by
    rw [assigned_map]
    change (lastOccurrence key (unparsed fs build argv)).map _ = _
    cases last : lastOccurrence key (unparsed fs build argv) with
    | none => rfl
    | some occ =>
        have named : occ.name = key := (last_occurrence_mem _ occ last).2
        simp [Command.assignment, Command.values, Occurrence.command, named]
  rw [secondPass, List.map_append, assigned_append, List.map_map, List.map_map, parsed,
    assigned_map]
  rfl

end Views

theorem option_precedence_iff (final : Registry)
    (done : parseArguments fs build testArgs argv = .ok final) (key : Text) :
    valuesOf final key = expectedValues fs build testArgs argv key ↔
      PrecedenceKept fs build testArgs argv key := by
  obtain ⟨taken, values⟩ := parse_arguments_success final done
  have default : registeredDefault build testArgs key =
      ((lastArg key testArgs).map fun arg => (argCommand arg).values).or
        (assigned key ((baseArgs build).map fun arg => (argCommand arg).assignment fs)) := by
    rw [registeredDefault, last_arg_append, base_assigned, Option.map_or]
  rw [values, written_eq, written_eq, second_pass_assigned, precedenceKept_iff,
    ← lateTestValues, ← lateConfigValues]
  cases lateTestValues fs build testArgs argv key with
  | some late =>
      simp only [Option.some_or, Option.some.injEq, forall_eq', reduceCtorEq, IsEmpty.forall_iff,
        and_true]
      exact eq_comm
  | none =>
      cases parsed : lastOccurrence key (unparsed fs build argv) with
      | some occ =>
          -- the second pass has set the option
          obtain ⟨member, named⟩ := last_occurrence_mem _ occ parsed
          have accepted := taken (occ.command (finalTypes build testArgs))
            (List.mem_append_right _ (List.mem_map_of_mem member))
          simp only [Occurrence.command, named] at accepted
          obtain ⟨own, stored⟩ := Option.isSome_iff_exists.mp accepted
          have present : lastOccurrence key (occurrences argv) ≠ none := by
            intro absent
            exact (last_occurrence_none _).mp absent occ (left_over_mem [] _ occ member) named
          obtain ⟨last, found⟩ := Option.ne_none_iff_exists'.mp present
          simp [expectedValues, found, stored]
      | none =>
          -- it has not, and the first pass has taken every occurrence
          have allTaken := (last_occurrence_none _).mp parsed
          obtain ⟨accepted, first⟩ := first_pass_assigned [] (occurrences argv) allTaken
          rw [first]
          -- a default of the test comes behind everything the first pass set
          cases declared : lastArg key testArgs with
          | some arg =>
              rw [declared] at default
              cases found : lastOccurrence key (occurrences argv) with
              | some last => simp [expectedValues, found, default]
              | none =>
                  cases configured : configValues fs argv key <;>
                    simp [expectedValues, found, configured, default, eq_comm]
          | none =>
              rw [declared] at default
              cases found : lastOccurrence key (occurrences argv) with
              | some last =>
                  obtain ⟨member, named⟩ := last_occurrence_mem _ last found
                  obtain ⟨own, stored⟩ := Option.isSome_iff_exists.mp (accepted last member named)
                  cases configured : lateConfigValues fs build argv key <;>
                    simp [expectedValues, found, stored, eq_comm, final_types_undeclared declared]
              | none =>
                  rw [first_pass_absent found]
                  simp [expectedValues, found, default]

/-! `sysbench cpu run` with a configuration file. -/
section Runs

def noDrivers : Build := { useMysql := false, usePgsql := false, mysqlOptSslMode := false }

def cpuArgs : List Arg := [sbOpt "cpu-max-prime" (some "10000") .int]

/-- The only file is called `f`. -/
def oneFile (content : String) : FileSystem := fun filename =>
  if filename = text "f" then some (content.toList.map fun c => c.toNat.toUInt8) else none

def fileFirst : List Text :=
  [text "--config-file=f", text "--threads=4", text "cpu", text "run"]

def fileLast : List Text :=
  [text "--threads=4", text "--config-file=f", text "cpu", text "run"]

theorem parsed_before (fs : FileSystem) (argv : List Text) (key : Text) (values : List Text)
    (ends : (parseArguments fs noDrivers cpuArgs argv).toOption.bind (valuesOf · key) =
      some values) :
    ∃ final, parseArguments fs noDrivers cpuArgs argv = .ok final ∧
      valuesOf final key = some values := by
  cases run : parseArguments fs noDrivers cpuArgs argv with
  | error failure => simp [run, Except.toOption] at ends
  | ok final => exact ⟨final, rfl, by simpa [run, Except.toOption] using ends⟩

/-- The file names another value before the command line does. -/
theorem threads_after_file : ∃ final,
    parseArguments (oneFile "threads=7\n") noDrivers cpuArgs fileFirst = .ok final ∧
      valuesOf final (text "threads") =
        expectedValues (oneFile "threads=7\n") noDrivers cpuArgs fileFirst (text "threads") := by
  obtain ⟨final, done, _⟩ := parsed_before (oneFile "threads=7\n") fileFirst (text "threads")
    [text "4"] (by decide +kernel)
  have noTestFile : lateTestValues (oneFile "threads=7\n") noDrivers cpuArgs fileFirst
      (text "threads") = none := by decide +kernel
  have allTaken : lastOccurrence (text "threads")
      (unparsed (oneFile "threads=7\n") noDrivers fileFirst) = none := by decide +kernel
  have untested : lastArg (text "threads") cpuArgs = none :=
    List.getLast?_eq_none_iff.mpr (List.filter_eq_nil_iff.mpr (by decide))
  have noFileBehind : lateConfigValues (oneFile "threads=7\n") noDrivers fileFirst
      (text "threads") = none := by decide +kernel
  exact ⟨final, done, (option_precedence_iff final done (text "threads")).mpr
    { testFile := by simp [noTestFile]
      parsed := by simp [allTaken]
      overCommandLine := by simp [untested]
      overFile := by simp [untested]
      fileBehind := by simp [noFileBehind] }⟩

/-- The file's value of a test option gives way to the default; the value on the
command line to a file named behind it. -/
theorem file_misplaced :
    (∃ final, parseArguments (oneFile "cpu-max-prime=5000\n") noDrivers cpuArgs fileLast =
        .ok final ∧ valuesOf final (text "cpu_max_prime") = some [text "10000"] ∧
      expectedValues (oneFile "cpu-max-prime=5000\n") noDrivers cpuArgs fileLast
        (text "cpu_max_prime") = some [text "5000"]) ∧
    (∃ final, parseArguments (oneFile "threads=7\n") noDrivers cpuArgs fileLast = .ok final ∧
      valuesOf final (text "threads") = some [text "7"] ∧
      expectedValues (oneFile "threads=7\n") noDrivers cpuArgs fileLast (text "threads") =
        some [text "4"]) := by
  constructor
  · obtain ⟨final, done, ends⟩ := parsed_before (oneFile "cpu-max-prime=5000\n") fileLast
      (text "cpu_max_prime") [text "10000"] (by decide +kernel)
    exact ⟨final, done, ends, by decide +kernel⟩
  · obtain ⟨final, done, ends⟩ := parsed_before (oneFile "threads=7\n") fileLast
      (text "threads") [text "7"] (by decide +kernel)
    exact ⟨final, done, ends, by decide +kernel⟩

end Runs
end PteSysbench.OptionPrecedence
