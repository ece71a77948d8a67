import PteSysbench.ArgumentParser
import PteSysbench.ConfigText
import PteSysbench.OptionValues
import Mathlib.Algebra.Ring.Int.Defs

/-!
One value given to an option by a line of a configuration file and on the command
line, and what the getter of its type makes of either.
-/

namespace PteSysbench.ConfigLines

open ArgumentParser ConfigText OptionRegistry OptionValues SeparatedItems

/-- What the getter of the option's type returns; a bad number ends the process. -/
inductive Seen (Double : Type*) where
  | flag (value : Bool)
  | int (value : Option Int)
  | size (value : UInt64)
  | double (value : Double)
  | string (value : Option Text)
  | list (values : List Text)
  | unread
  deriving DecidableEq

/-- What either pass over `argv` does with one argument. -/
def parseArgument (fs : FileSystem) (options : Registry) (arg : Text) : Registry :=
  match optionText arg with
  | none => options
  | some name => (parseOption fs options name false).1

section Views
variable {Double : Type*} [Zero Double]

def seenAs (strtod : Text → Double) (opt : OptionEntry) : Seen Double :=
  match opt.type with
  | .bool => .flag (sbOptToFlag opt)
  | .int => .int (sbOptToInt opt).toOption
  | .size => .size (sbOptToSize opt)
  | .double => .double (sbOptToDouble strtod opt)
  | .string => .string (sbOptToString opt)
  | .list => .list (sbOptToList opt)
  | .null | .file => .unread

def seen (strtod : Text → Double) (options : Registry) (name : Text) : Option (Seen Double) :=
  (findOption options name).map (seenAs strtod)

/-- The option with these values. -/
def holding (opt : OptionEntry) (values : List Text) : OptionEntry := { opt with values := values }

/-- The line of a value is read as the value itself is. -/
def PlainReading (strtod : Text → Double) (type : ArgType) (value : Text) : Prop :=
  match type with
  | .bool => value = text "on" ∨ value = text "true" ∨ value = text "1"
  | .int => valueSeparator ∈ value → readInt (firstItem valueSeparator value) = none
  | .size => valueSeparator ∈ value →
      (∀ c ∈ firstItem valueSeparator value, isdigit c = true) →
      readSize (firstItem valueSeparator value) = 0
  | .double => valueSeparator ∈ value →
      (separated valueSeparator value).getLast?.map strtod = some (strtod value)
  | .string => valueSeparator ∉ value
  | .list => [] ∉ (items valueSeparator value).dropLast
  | .null | .file => True

/-- What the line has to look like, from the text `assigned` that its buffers give the
option: another text than the value's where a long line is cut, none where a blank ends
the name. -/
def LineReading (strtod : Text → Double) (opt : OptionEntry) (value : Text)
    (assigned : Option Text) : Prop :=
  match assigned with
  | none => seenAs strtod opt = seenAs strtod (holding opt (meantValues opt.type value))
  | some given =>
      if given = value then PlainReading strtod opt.type value
      else seenAs strtod (holding opt (separated valueSeparator given)) =
        seenAs strtod (holding opt (meantValues opt.type value))

end Views

/-! A line that is cut nowhere. -/
section Readings
variable {Double : Type*} [Zero Double] {strtod : Text → Double} {opt : OptionEntry}
  {item rest value : Text}

theorem separated_meant {type : ArgType} (single : type ≠ .bool ∧ type ≠ .list)
    (absent : valueSeparator ∉ value) :
    separated valueSeparator value = meantValues type value := by
  rw [separated_single absent]
  cases type <;> simp_all [meantValues]

theorem meant_item {type : ArgType} (single : type ≠ .bool ∧ type ≠ .list) :
    meantValues type (item ++ valueSeparator :: rest) = [item ++ valueSeparator :: rest] := by
  cases type <;> simp_all [meantValues]

/-- A type that takes its value whole: only a separator can make a difference. -/
theorem whole_reading {type : ArgType} (single : type ≠ .bool ∧ type ≠ .list)
    (plain : valueSeparator ∉ value → PlainReading strtod type value)
    (cut : ∀ item rest, valueSeparator ∉ item → value = item ++ valueSeparator :: rest →
      (seenAs strtod (holding opt (item :: separated valueSeparator rest)) =
        seenAs strtod (holding opt [value]) ↔ PlainReading strtod type value)) :
    seenAs strtod (holding opt (separated valueSeparator value)) =
      seenAs strtod (holding opt (meantValues type value)) ↔ PlainReading strtod type value := by
  by_cases present : valueSeparator ∈ value
  · obtain ⟨item, rest, rfl, absent⟩ := List.eq_append_cons_of_mem present
    rw [meant_item single, separated_item absent]
    exact cut item rest absent rfl
  · rw [separated_meant single present]
    exact iff_of_true rfl (plain present)

theorem bool_reading (taken : (optionValues .bool (some value)).isSome = true)
    (typed : opt.type = .bool) :
    seenAs strtod (holding opt (separated valueSeparator value)) =
      seenAs strtod (holding opt (meantValues .bool value)) ↔ PlainReading strtod .bool value := by
  -- a line of any accepted spelling leaves one value, and one value is on
  have kept : (separated valueSeparator value).isEmpty = false := by
    simp only [optionValues, ne_eq, not_true_eq_false, false_and, ↓reduceIte] at taken
    split_ifs at taken with on off
    · rcases on with rfl | rfl | rfl <;> decide
    · rcases off with rfl | rfl | rfl <;> decide
    · cases taken
  simp only [seenAs, holding, typed, sbOptToFlag, kept, meantValues, PlainReading]
  split_ifs with on <;> simp [on]

theorem list_reading (typed : opt.type = .list) :
    seenAs strtod (holding opt (separated valueSeparator value)) =
      seenAs strtod (holding opt (meantValues .list value)) ↔ PlainReading strtod .list value := by
  simp only [seenAs, holding, typed, sbOptToList, meantValues, PlainReading, Seen.list.injEq,
    ← kept_eq_separated_iff]
  exact eq_comm

theorem int_reading (typed : opt.type = .int) :
    seenAs strtod (holding opt (separated valueSeparator value)) =
      seenAs strtod (holding opt (meantValues .int value)) ↔ PlainReading strtod .int value := by
  refine whole_reading (by simp) (fun absent present => absurd present absent) ?_
  rintro item rest absent rfl
  have unread : readInt (item ++ valueSeparator :: rest) = none :=
    read_int_stops _ valueSeparator (by decide) (by decide) (by decide) (by simp)
  simp only [seenAs, holding, typed, sbOptToInt, unread, PlainReading, first_item absent]
  cases number : readInt item <;> simp [Except.toOption]

theorem size_reading (typed : opt.type = .size) :
    seenAs strtod (holding opt (separated valueSeparator value)) =
      seenAs strtod (holding opt (meantValues .size value)) ↔ PlainReading strtod .size value := by
  refine whole_reading (by simp) (fun absent present => absurd present absent) ?_
  rintro item rest absent rfl
  have foreign := read_size_foreign item rest valueSeparator (by decide) (by decide)
  simp only [seenAs, holding, typed, sbOptToSize, foreign, PlainReading, first_item absent,
    Seen.size.injEq, List.mem_append, List.mem_cons, true_or, or_true, forall_const]
  by_cases digits : ∀ c ∈ item, isdigit c = true
  · rw [if_pos (List.all_eq_true.mpr digits)]
    exact ⟨fun same _ => same, fun zero => zero digits⟩
  · rw [if_neg (List.all_eq_true.not.mpr digits)]
    exact ⟨fun _ allDigits => absurd allDigits digits, fun _ => rfl⟩

theorem string_reading (typed : opt.type = .string) :
    seenAs strtod (holding opt (separated valueSeparator value)) =
      seenAs strtod (holding opt (meantValues .string value)) ↔
    PlainReading strtod .string value := by
  refine whole_reading (by simp) id ?_
  rintro item rest absent rfl
  simp [seenAs, holding, typed, sbOptToString, PlainReading]

theorem double_reading (typed : opt.type = .double) :
    seenAs strtod (holding opt (separated valueSeparator value)) =
      seenAs strtod (holding opt (meantValues .double value)) ↔
    PlainReading strtod .double value := by
  refine whole_reading (by simp) (fun absent present => absurd present absent) ?_
  rintro item rest absent rfl
  -- the getter reads every value, and the last one stays
  obtain ⟨front, last, values⟩ : ∃ front last,
      item :: separated valueSeparator rest = front ++ [last] :=
    (List.eq_nil_or_concat' _).resolve_left (by simp)
  simp [seenAs, holding, typed, sbOptToDouble, PlainReading, separated_item absent, values]

/-- A value of any type, at an option whose line is in one buffer. -/
theorem plain_reading_iff (strtod : Text → Double) (valued : opt.type ≠ .null ∧ opt.type ≠ .file)
    (taken : (optionValues opt.type (some value)).isSome = true) :
    seenAs strtod (holding opt (separated valueSeparator value)) =
      seenAs strtod (holding opt (meantValues opt.type value)) ↔
    PlainReading strtod opt.type value := by
  cases typed : opt.type with
  | null => exact absurd typed valued.1
  | file => exact absurd typed valued.2
  | bool => exact bool_reading (typed ▸ taken) typed
  | int => exact int_reading typed
  | size => exact size_reading typed
  | double => exact double_reading typed
  | string => exact string_reading typed
  | list => exact list_reading typed

end Readings

/-! The option after the line, and after the argument. -/
section Agreement
variable {Double : Type*} [Zero Double] {strtod : Text → Double} {fs : FileSystem}
  {options : Registry} {name value : Text} {opt : OptionEntry}

theorem seen_as_congr (a b : OptionEntry) (types : a.type = b.type) (values : a.values = b.values) :
    seenAs strtod a = seenAs strtod b := by
  have ints : (sbOptToInt a).toOption = (sbOptToInt b).toOption := by
    simp only [sbOptToInt, values]
    cases b.values with
    | nil => rfl
    | cons value rest => cases number : readInt value <;> simp [number, Except.toOption]
  simp only [seenAs, types, sbOptToFlag, ints, sbOptToSize, sbOptToDouble, sbOptToString,
    sbOptToList, values]

theorem seen_eq (opt : OptionEntry) (values : List Text)
    (hasType : typeOf options (convertDashes name) = some opt.type)
    (hasValues : valuesOf options (convertDashes name) = some values) :
    seen strtod options name = some (seenAs strtod (holding opt values)) := by
  obtain ⟨entry, found, types⟩ := Option.map_eq_some_iff.mp hasType
  rw [valuesOf, found, Option.map_some, Option.some.injEq] at hasValues
  rw [seen, find_option_eq, found, Option.map_some]
  exact congrArg some (seen_as_congr _ _ types hasValues)

theorem registered_parts (registered : findOption options name = some opt) :
    typeOf options (convertDashes name) = some opt.type ∧
      valuesOf options (convertDashes name) = some opt.values := by
  rw [find_option_eq] at registered
  simp [typeOf, valuesOf, registered]

theorem config_line_seen (spaced ended : Bool) (registered : findOption options name = some opt)
    (clean : Clean value) (absent : valueDelimiter ∉ name) :
    seen strtod (readConfig (lineContent ended (configLine spaced name value)) options) name =
      some (match assignedText (convertDashes name)
          (lineBuffers ended (configLine spaced name value)) with
        | none => seenAs strtod opt
        | some given => seenAs strtod (holding opt (separated valueSeparator given))) := by
  obtain ⟨hasType, hasValues⟩ := registered_parts registered
  obtain ⟨head, tail, content, named, padded⟩ := line_content_eq spaced ended name value
  have read := line_values_assigned (convertDashes name)
    (lineBuffers ended (configLine spaced name value)) (by
      rw [lineBuffers, content]
      exact buffers_padded head tail (fun member => absent (named member)) (padded clean))
  have types : typeOf (readConfig (lineContent ended (configLine spaced name value)) options)
      (convertDashes name) = some opt.type := by
    rw [readConfig, read_config_lines_type, hasType, Option.some_or]
  have values := read_config_lines_values (lineBuffers ended (configLine spaced name value))
    options (convertDashes name)
  rw [read, hasValues] at values
  cases given : assignedText (convertDashes name)
      (lineBuffers ended (configLine spaced name value)) with
  | none =>
      rw [given] at values
      exact seen_eq opt opt.values types values
  | some text =>
      rw [given] at values
      exact seen_eq opt _ types values

theorem argument_seen (registered : findOption options name = some opt)
    (valued : opt.type ≠ .null ∧ opt.type ≠ .file) (absent : valueDelimiter ∉ name)
    (accepted : (setOption fs options name (some value) opt.type).2 = true) :
    seen strtod (parseArgument fs options (dash :: dash :: (name ++ valueDelimiter :: value)))
        name = some (seenAs strtod (holding opt (meantValues opt.type value))) := by
  have parsed : parseArgument fs options (dash :: dash :: (name ++ valueDelimiter :: value)) =
      (setOption fs options name (some value) opt.type).1 := by
    simp [parseArgument, optionText, parseOption, optionParts, split_delimiter_append _ _ absent,
      registered]
  obtain ⟨validated, taken⟩ := set_option_success accepted
  have meant := option_values_meant opt.type value taken valued.2
  have unread : (Command.mk (convertDashes name) (some value) opt.type).file fs = none := by
    rw [Command.file, named_file_none valued.2, Option.bind_none]
  rw [parsed]
  apply seen_eq
  · rw [set_option_type fs opt.type _ validated, if_pos rfl, Option.some_or]
  · rw [set_option_values fs opt.type _ validated]
    simp [LastWriter.Assignment.wrote, Command.assignment, unread, Command.values, meant]

/-- Setting one option leaves those with a delimiter in their name alone. -/
theorem set_option_delimited (fs : FileSystem) (type : ArgType) (given : Option Text) {key : Text}
    (delimited : valueDelimiter ∈ key) (absent : valueDelimiter ∉ name) :
    typeOf (setOption fs options name given type).1 key = typeOf options key ∧
      valuesOf (setOption fs options name given type).1 key = valuesOf options key := by
  have apart : key ≠ convertDashes name := by
    rintro rfl
    exact absent ((convert_dashes_delimiter name).mp delimited)
  by_cases accepted : accepts (validatorOf options (convertDashes name)) name given = true
  · have unset : ((Command.mk (convertDashes name) given type).file fs).bind
        (fun content => fileValues content key) = none := by
      cases (Command.mk (convertDashes name) given type).file fs with
      | none => rfl
      | some content => exact line_values_delimited key delimited _
    rw [set_option_type fs type key accepted, set_option_values fs type key accepted]
    simp [LastWriter.Assignment.wrote, Command.assignment, unset, apart, Ne.symm apart]
  · rw [setOption, validated_cleared, if_neg accepted]
    simp only [typeOf, valuesOf, lookup_cleared, if_neg apart, and_self]

/-- An option with a delimiter in its name is out of reach of both. -/
theorem delimited_unseen (spaced ended : Bool) (registered : findOption options name = some opt)
    (delimited : valueDelimiter ∈ name) :
    seen strtod (readConfig (lineContent ended (configLine spaced name value)) options) name =
      seen strtod (parseArgument fs options (dash :: dash :: (name ++ valueDelimiter :: value)))
        name := by
  obtain ⟨hasType, hasValues⟩ := registered_parts registered
  have key := (convert_dashes_delimiter name).mpr delimited
  have line : seen strtod (readConfig (lineContent ended (configLine spaced name value)) options)
      name = some (seenAs strtod (holding opt opt.values)) := by
    apply seen_eq
    · rw [readConfig, read_config_lines_type, hasType, Option.some_or]
    · rw [readConfig, read_config_lines_values, line_values_delimited _ key, hasValues,
        Option.none_or]
  have argument : seen strtod
      (parseArgument fs options (dash :: dash :: (name ++ valueDelimiter :: value))) name =
      some (seenAs strtod (holding opt opt.values)) := by
    obtain ⟨before, after, rfl, absent⟩ := List.eq_append_cons_of_mem delimited
    have parts : optionParts (before ++ valueDelimiter :: after ++ valueDelimiter :: value) =
        (before, some (after ++ valueDelimiter :: value)) := by
      rw [List.append_assoc, List.cons_append, optionParts, split_delimiter_append _ _ absent]
    cases found : findOption options before with
    | none =>
        have parsed : parseArgument fs options (dash :: dash ::
            (before ++ valueDelimiter :: after ++ valueDelimiter :: value)) = options := by
          simp only [parseArgument, optionText, and_self, ↓reduceIte, parseOption, parts, found]
          rfl
        rw [parsed]
        exact seen_eq opt opt.values hasType hasValues
    | some other =>
        have parsed : parseArgument fs options (dash :: dash ::
            (before ++ valueDelimiter :: after ++ valueDelimiter :: value)) =
            (setOption fs options before (some (after ++ valueDelimiter :: value))
              other.type).1 := by
          simp only [parseArgument, optionText, and_self, ↓reduceIte, parseOption, parts, found]
        obtain ⟨types, values⟩ := set_option_delimited fs other.type
          (some (after ++ valueDelimiter :: value)) key absent
        rw [parsed]
        exact seen_eq opt opt.values (types.trans hasType) (values.trans hasValues)
  rw [line, argument]

/-- The exact agreement of a configuration line with the command line. -/
theorem line_agrees_iff (strtod : Text → Double) (fs : FileSystem) (options : Registry)
    (name value : Text) (opt : OptionEntry) (spaced ended : Bool)
    (registered : findOption options name = some opt)
    (valued : opt.type ≠ .null ∧ opt.type ≠ .file) (clean : Clean value)
    (accepted : (setOption fs options name (some value) opt.type).2 = true) :
    seen strtod (readConfig (lineContent ended (configLine spaced name value)) options) name =
      seen strtod (parseArgument fs options (dash :: dash :: (name ++ valueDelimiter :: value)))
        name ↔
    valueDelimiter ∈ name ∨ LineReading strtod opt value
      (assignedText (convertDashes name) (lineBuffers ended (configLine spaced name value))) := by
  by_cases delimited : valueDelimiter ∈ name
  · exact iff_of_true (delimited_unseen spaced ended registered delimited) (.inl delimited)
  · rw [config_line_seen spaced ended registered clean delimited,
      argument_seen registered valued delimited accepted, Option.some.injEq]
    cases assigned : assignedText (convertDashes name)
        (lineBuffers ended (configLine spaced name value)) with
    | none => simp only [delimited, false_or, LineReading]
    | some given =>
        simp only [delimited, false_or, LineReading]
        split
        · rename_i whole
          rw [whole]
          exact plain_reading_iff strtod valued (set_option_success accepted).2
        · exact Iff.rfl

end Agreement

/-! The general options of `sysbench.c`, without a configuration file. -/
section Runs

def generalOptions : Registry := (sbRegisterArgSet noFiles [] generalArgs).1

/-- No option of these is a double. -/
def readZero : Text → Int := fun _ => 0

theorem threads_line_agrees : ∃ opt, findOption generalOptions (text "threads") = some opt ∧
    seen readZero (readConfig (lineContent true (configLine false (text "threads") (text "4")))
      generalOptions) (text "threads") =
    seen readZero (parseArgument noFiles generalOptions (text "--threads=4")) (text "threads") := by
  have declared : (findOption generalOptions (text "threads")).map OptionEntry.type =
      some .int := by decide +kernel
  obtain ⟨opt, registered, typed⟩ := Option.map_eq_some_iff.mp declared
  have clean : Clean (text "4") := by decide
  have assigned := short_line_assigned false true clean
    (show valueDelimiter ∉ text "threads" by decide) (by decide) (by decide)
  refine ⟨opt, registered, (line_agrees_iff readZero noFiles generalOptions (text "threads")
    (text "4") opt false true registered (by simp [typed]) clean
    (by rw [typed]; decide +kernel)).mpr
    (.inr ?_)⟩
  have unseparated : valueSeparator ∉ text "4" := by decide
  rw [assigned]
  simp [LineReading, PlainReading, typed, unseparated]

/-- A flag set to off is on, and blanks around the delimiter hide the line. -/
theorem lines_misread :
    (Clean (text "off") ∧ typeOf generalOptions (text "debug") = some .bool ∧
      (setOption noFiles generalOptions (text "debug") (some (text "off")) .bool).2 = true ∧
      seen readZero (readConfig (lineContent true (configLine false (text "debug") (text "off")))
        generalOptions) (text "debug") = some (.flag true) ∧
      seen readZero (parseArgument noFiles generalOptions (text "--debug=off")) (text "debug") =
        some (.flag false)) ∧
    (Clean (text "4") ∧ typeOf generalOptions (text "threads") = some .int ∧
      (setOption noFiles generalOptions (text "threads") (some (text "4")) .int).2 = true ∧
      seen readZero (readConfig (lineContent true (configLine true (text "threads") (text "4")))
        generalOptions) (text "threads") = some (.int (some 1)) ∧
      seen readZero (parseArgument noFiles generalOptions (text "--threads=4")) (text "threads") =
        some (.int (some 4))) := by
  refine ⟨⟨?_, ?_, ?_, ?_, ?_⟩, ?_, ?_, ?_, ?_, ?_⟩ <;> decide +kernel

end Runs
end PteSysbench.ConfigLines
