import PteSysbench.ConfigText
import PteSysbench.OptionValues
import Mathlib.Algebra.GroupWithZero.Nat

/-!
`sb_opt_copy` of sb_options.c. The copy is a `set_option` with the first value of the
source; `set_option` frees the values of its option before it reads that text.
-/

namespace PteSysbench.OptionCopy

open OptionRegistry OptionValues SeparatedItems

/-! The copy and what it is to do. -/
section Copy

/-- The text that `sb_opt_to_string` returned was freed. -/
inductive CopyFault where
  | useAfterFree
  deriving DecidableEq

/-- The result of `set_option` is not looked at. -/
def sbOptCopy (fs : FileSystem) (options : Registry) (to_ from_ : Text) :
    Except CopyFault (Registry × Bool) :=
  match findOption options from_ with
  | none => .ok (options, false)
  | some opt =>
      let value := sbOptToString opt
      -- a name of the same option: its values are freed first
      if optNameCmp to_ from_ = 0 ∧ value ≠ none then .error .useAfterFree
      else .ok ((setOption fs options to_ value opt.type).1, true)

variable {Double : Type*} [Zero Double] (strtod : Text → Double)

/-- Two options give the same through the accessor of the type. An `int` that is invalid
ends the process, with the option's own name in the message. -/
def SameRead (type : ArgType) (a b : OptionEntry) : Prop :=
  match type with
  | .bool => sbOptToFlag a = sbOptToFlag b
  | .int => (sbOptToInt a).toOption = (sbOptToInt b).toOption
  | .size => sbOptToSize a = sbOptToSize b
  | .double => sbOptToDouble strtod a = sbOptToDouble strtod b
  | .string => sbOptToString a = sbOptToString b
  | .list => sbOptToList a = sbOptToList b
  | .null | .file => True

/-- `opt` is what the source was before the call. -/
def Copied (fs : FileSystem) (options : Registry) (to_ from_ : Text) (opt : OptionEntry) : Prop :=
  ∃ after target, sbOptCopy fs options to_ from_ = .ok (after, true) ∧
    findOption after to_ = some target ∧ target.type = opt.type ∧
    SameRead strtod opt.type target opt ∧ findOption after from_ = some opt

/-- The text of the first value stands for all of them. -/
def TextStands (type : ArgType) (values : List Text) : Prop :=
  match type with
  | .bool => ∃ v rest, values = v :: rest ∧ (v = text "on" ∨ v = text "true" ∨ v = text "1")
  | .double => values.head?.map strtod = values.getLast?.map strtod
  | .string => values.head? ≠ some []
  | .list => values = [] ∨ ∃ v, values = [v] ∧ v ≠ [] ∧ valueSeparator ∉ v
  | .int | .size | .null | .file => True

/-- The file that a copied FILE option names does not set the source. -/
def FileKeeps (fs : FileSystem) (type : ArgType) (values : List Text) (key : Text) : Prop :=
  ∀ content set, (namedFile type values.head?).bind fs = some content →
    fileValues content key = some set → set = values

def CopyHolds (fs : FileSystem) (options : Registry) (to_ from_ : Text) (opt : OptionEntry) :
    Prop :=
  if convertDashes to_ = convertDashes from_ then
    opt.values = [] ∧ (opt.type = .bool → accepts opt.validate to_ none = false)
  else if accepts (validatorOf options (convertDashes to_)) to_ opt.values.head? = true then
    TextStands strtod opt.type opt.values ∧
      FileKeeps fs opt.type opt.values (convertDashes from_)
  else SameRead strtod opt.type { opt with values := [] } opt
end Copy

/-! What `set_option` leaves of the two options. -/
section Lookups
variable (fs : FileSystem) (options : Registry) (name : Text) (value : Option Text)
  (type : ArgType)

/-- The values that an option has behind `set_option`, before a file is read. -/
def keptValues : List Text :=
  if accepts (validatorOf options (convertDashes name)) name value then
    (optionValues type value).getD []
  else []

def setEntry : OptionEntry :=
  { (lookup options (convertDashes name)).getD (newOption name) with
    values := keptValues options name value type
    type := type }

theorem set_option_lookup (key : Text)
    (unread : accepts (validatorOf options (convertDashes name)) name value = true →
      (namedFile type value).bind fs = none) :
    lookup (setOption fs options name value type).1 key =
      if key = convertDashes name then some (setEntry options name value type)
      else lookup options key := by
  by_cases accepted : accepts (validatorOf options (convertDashes name)) name value = true
  · obtain ⟨stored, entries, result⟩ := set_option_cases fs type accepted
    have closed : (Command.mk (convertDashes name) value type).file fs = none := unread accepted
    rw [result, closed]
    simp only [entries]
    by_cases same : key = convertDashes name
    · simp [same, setEntry, keptValues, accepted, Command.values]
    · simp [same]
  · rw [setOption, validated_cleared, if_neg accepted, lookup_cleared]
    by_cases same : key = convertDashes name
    · simp [same, setEntry, keptValues, accepted]
    · simp [same]

/-- Behind a file, an option that it sets has the values of the file. -/
theorem set_option_lookup_file (key : Text) (content : List UInt8)
    (accepted : accepts (validatorOf options (convertDashes name)) name value = true)
    (read : (namedFile type value).bind fs = some content) :
    lookup (setOption fs options name value type).1 key =
      let before := if key = convertDashes name then some (setEntry options name value type)
        else lookup options key
      match fileValues content key with
      | none => before
      | some values => some { before.getD (newOption key) with values := values } := by
  obtain ⟨stored, entries, result⟩ := set_option_cases fs type accepted
  have opened : (Command.mk (convertDashes name) value type).file fs = some content := read
  have before : lookup stored key =
      if key = convertDashes name then some (setEntry options name value type)
      else lookup options key := by
    rw [entries]
    by_cases same : key = convertDashes name
    · simp [same, setEntry, keptValues, accepted, Command.values]
    · simp [same]
  rw [result, opened]
  cases last : lineValues key (fgetsAll [] (maxStrLen - 1) content) with
  | none => simp [readConfig, read_config_lines_lookup, before, fileValues, last]
  | some values => simp [readConfig, read_config_lines_lookup, before, fileValues, last]
end Lookups

/-! What the accessors make of the text. -/
section Reads
variable {Double : Type*} [Zero Double] {strtod : Text → Double}

theorem same_read_values {type : ArgType} {a b opt : OptionEntry} (same : a.values = b.values) :
    SameRead strtod type a opt ↔ SameRead strtod type b opt := by
  cases type with
  | bool => simp only [SameRead, sbOptToFlag, same]
  | int =>
      have read : (sbOptToInt a).toOption = (sbOptToInt b).toOption := by
        unfold sbOptToInt
        rw [same]
        cases b.values with
        | nil => rfl
        | cons value rest => cases read : readInt value <;> simp [read, Except.toOption]
      simp only [SameRead, read]
  | size => simp only [SameRead, sbOptToSize, same]
  | double => simp only [SameRead, sbOptToDouble, same]
  | string => simp only [SameRead, sbOptToString, same]
  | list => simp only [SameRead, sbOptToList, same]
  | null | file => rfl

theorem same_read_refl (type : ArgType) (opt : OptionEntry) : SameRead strtod type opt opt := by
  cases type <;> trivial

variable {target opt : OptionEntry}

theorem bool_read (kept : target.values = (optionValues .bool opt.values.head?).getD []) :
    SameRead strtod .bool target opt ↔ TextStands strtod .bool opt.values := by
  simp only [SameRead, TextStands, sbOptToFlag, kept]
  cases opt.values with
  | nil => simp [optionValues]
  | cons v rest =>
      by_cases set : v = text "on" ∨ v = text "true" ∨ v = text "1"
      · have stored : optionValues .bool (some v) = some [text "on"] := by
          simp only [optionValues, set, if_true]
          rfl
        simp [stored, set]
      · have stored : (optionValues .bool (some v)).getD [] = [] := by
          simp only [optionValues, ne_eq, not_true_eq_false, false_and, set, if_false]
          split <;> rfl
        simp [stored, set]

theorem string_read (kept : target.values = (optionValues .string opt.values.head?).getD []) :
    SameRead strtod .string target opt ↔ TextStands strtod .string opt.values := by
  simp only [SameRead, TextStands, sbOptToString, kept]
  cases opt.values with
  | nil => simp [optionValues]
  | cons v rest =>
      by_cases empty : v = []
      · simp [optionValues, empty]
      · simp [optionValues, empty]

theorem token_uncut (v token : Text) (member : token ∈ strtok [] v) : valueSeparator ∉ token := by
  rw [ConfigText.strtok_items] at member
  have listed := (List.mem_filter.mp member).1
  clear member
  induction v using item_induction valueSeparator with
  | single item absent =>
      rw [items_single absent, List.mem_singleton] at listed
      rwa [listed]
  | more item rest absent ih =>
      rw [items_item absent, List.mem_cons] at listed
      rcases listed with rfl | later
      · exact absent
      · exact ih later

theorem strtok_same_iff (v : Text) (rest : List Text) (some_ : v ≠ []) :
    strtok [] v = v :: rest ↔ rest = [] ∧ valueSeparator ∉ v := by
  have whole : valueSeparator ∉ v → strtok [] v = [v] := by
    intro absent
    rw [ConfigText.strtok_items, items_single absent]
    simp [some_]
  constructor
  · intro same
    have absent : valueSeparator ∉ v := by
      apply token_uncut v v
      rw [same]
      exact List.mem_cons_self
    rw [whole absent] at same
    exact ⟨(List.cons.inj same).2.symm, absent⟩
  · rintro ⟨rfl, absent⟩
    exact whole absent

theorem list_read (kept : target.values = (optionValues .list opt.values.head?).getD []) :
    SameRead strtod .list target opt ↔ TextStands strtod .list opt.values := by
  simp only [SameRead, TextStands, sbOptToList, kept]
  cases opt.values with
  | nil => simp [optionValues]
  | cons v rest =>
      by_cases empty : v = []
      · simp [optionValues, empty]
      · simp [optionValues, empty, strtok_same_iff]

theorem int_read (kept : target.values = (optionValues .int opt.values.head?).getD []) :
    SameRead strtod .int target opt := by
  simp only [SameRead, sbOptToInt, kept]
  cases opt.values with
  | nil => simp [optionValues]
  | cons v rest =>
      by_cases empty : v = []
      · subst empty
        rfl
      · simp only [optionValues, List.head?_cons, Option.some.injEq, empty, reduceCtorEq, or_self,
          and_false, if_false, Option.getD_some]
        cases readInt v <;> simp [Except.toOption]

theorem size_read (kept : target.values = (optionValues .size opt.values.head?).getD []) :
    SameRead strtod .size target opt := by
  simp only [SameRead, sbOptToSize, kept]
  cases opt.values with
  | nil => simp [optionValues]
  | cons v rest =>
      by_cases empty : v = []
      · subst empty
        rfl
      · simp [optionValues, empty]

theorem double_last (values : List Text) :
    values.foldl (fun _ value => strtod value) 0 = (values.getLast?.map strtod).getD 0 := by
  rcases List.eq_nil_or_concat values with rfl | ⟨before, last, rfl⟩
  · rfl
  · rw [List.concat_eq_append, List.foldl_append, List.getLast?_concat]
    rfl

theorem double_read (zero : strtod [] = 0)
    (kept : target.values = (optionValues .double opt.values.head?).getD []) :
    SameRead strtod .double target opt ↔ TextStands strtod .double opt.values := by
  simp only [SameRead, TextStands, sbOptToDouble, kept, double_last]
  cases opt.values with
  | nil => simp [optionValues]
  | cons v rest =>
      by_cases empty : v = []
      · simp [optionValues, empty, zero, List.getLast?_cons]
      · simp [optionValues, empty, List.getLast?_cons]

/-- The accessors read the copy as the source just when the text stands for its values. -/
theorem text_read (zero : strtod [] = 0) (type : ArgType)
    (kept : target.values = (optionValues type opt.values.head?).getD []) :
    SameRead strtod type target opt ↔ TextStands strtod type opt.values := by
  cases type with
  | bool => exact bool_read kept
  | int => exact iff_of_true (int_read kept) trivial
  | size => exact iff_of_true (size_read kept) trivial
  | double => exact double_read zero kept
  | string => exact string_read kept
  | list => exact list_read kept
  | null | file => exact Iff.rfl
end Reads

/-! When the copy is one. -/
section Exact
variable {Double : Type*} [Zero Double] {strtod : Text → Double} {fs : FileSystem}
  {options : Registry} {to_ from_ : Text} {opt : OptionEntry}

theorem copy_done (fs : FileSystem) (to_ : Text) (registered : findOption options from_ = some opt)
    (alive : convertDashes to_ = convertDashes from_ → opt.values = []) :
    sbOptCopy fs options to_ from_ =
      .ok ((setOption fs options to_ opt.values.head? opt.type).1, true) := by
  have kept : ¬ (optNameCmp to_ from_ = 0 ∧ sbOptToString opt ≠ none) := by
    rintro ⟨same, some_⟩
    rw [sbOptToString, alive ((opt_name_cmp_eq_zero _ _).mp same)] at some_
    exact some_ rfl
  simp only [sbOptCopy, registered, if_neg kept]
  rfl

theorem copied_of_lookups {after : Registry} {target source : OptionEntry}
    (done : sbOptCopy fs options to_ from_ = .ok (after, true))
    (made : lookup after (convertDashes to_) = some target)
    (left : lookup after (convertDashes from_) = some source) :
    Copied strtod fs options to_ from_ opt ↔
      target.type = opt.type ∧ SameRead strtod opt.type target opt ∧ source = opt := by
  rw [← find_option_eq] at made left
  constructor
  · rintro ⟨other, found, again, here, type, read, unchanged⟩
    rw [done] at again
    cases again
    rw [made] at here
    cases here
    rw [left] at unchanged
    cases unchanged
    exact ⟨type, read, rfl⟩
  · rintro ⟨type, read, rfl⟩
    exact ⟨after, target, done, made, type, read, left⟩

theorem named_file_unread (none_ : opt.values = []) (type : ArgType) :
    (namedFile type opt.values.head?).bind fs = none := by
  rw [none_]
  cases type <;> rfl

/-- Without values nothing but an accepted BOOL changes: it is switched on. -/
theorem none_kept_iff (type : ArgType) (validate : Option Validator) (name : Text) :
    (if accepts validate name none = true then (optionValues type none).getD [] else []) = [] ↔
      (type = .bool → accepts validate name none = false) := by
  cases type with
  | bool =>
      have switched : (optionValues .bool none).getD [] ≠ [] := by decide
      cases accepts validate name none with
      | true => simp [switched]
      | false => simp
  | null | int | size | double | string | list | file => simp [optionValues]

/-- An option copied to itself. -/
theorem copied_self_iff (registered : findOption options from_ = some opt)
    (same : convertDashes to_ = convertDashes from_) :
    Copied strtod fs options to_ from_ opt ↔
      opt.values = [] ∧ (opt.type = .bool → accepts opt.validate to_ none = false) := by
  have found : lookup options (convertDashes to_) = some opt := by
    rw [same, ← find_option_eq]
    exact registered
  by_cases empty : opt.values = []
  · have done := copy_done fs to_ registered fun _ => empty
    have made := set_option_lookup fs options to_ opt.values.head? opt.type (convertDashes to_)
      fun _ => named_file_unread empty opt.type
    rw [if_pos rfl] at made
    rw [copied_of_lookups done made (same ▸ made), ← none_kept_iff, setEntry, found]
    have validator : validatorOf options (convertDashes to_) = opt.validate := by
      rw [validatorOf, found, Option.bind_some]
    simp only [Option.getD_some, keptValues, validator, empty, List.head?_nil, true_and]
    generalize (if accepts opt.validate to_ none = true then (optionValues opt.type none).getD []
      else []) = left
    constructor
    · rintro ⟨_, unchanged⟩
      exact (congrArg OptionEntry.values unchanged).trans empty
    · intro none_
      have unchanged : { opt with values := left } = opt := by
        rw [none_, ← empty]
      exact ⟨unchanged ▸ same_read_refl opt.type { opt with values := left }, unchanged⟩
  · -- the value handed on is freed with the values of the same entry
    have freed : sbOptCopy fs options to_ from_ = .error .useAfterFree := by
      have value : sbOptToString opt ≠ none := by
        rw [sbOptToString, ne_eq, List.head?_eq_none_iff]
        exact empty
      simp only [sbOptCopy, registered]
      rw [if_pos ⟨(opt_name_cmp_eq_zero _ _).mpr same, value⟩]
    constructor
    · rintro ⟨after, target, done, _⟩
      rw [freed] at done
      cases done
    · intro holds
      exact absurd holds.1 empty

/-- The name is another option's, whose validator refuses the text. -/
theorem copied_refused_iff (registered : findOption options from_ = some opt)
    (other : convertDashes to_ ≠ convertDashes from_)
    (refused : ¬ accepts (validatorOf options (convertDashes to_)) to_ opt.values.head? = true) :
    Copied strtod fs options to_ from_ opt ↔
      SameRead strtod opt.type { opt with values := [] } opt := by
  have done := copy_done fs to_ registered fun same => absurd same other
  have source : lookup options (convertDashes from_) = some opt := by
    rw [← find_option_eq]
    exact registered
  have lookups := fun key => set_option_lookup fs options to_ opt.values.head? opt.type key
    fun accepted => absurd accepted refused
  have made := lookups (convertDashes to_)
  have left := lookups (convertDashes from_)
  rw [if_pos rfl] at made
  rw [if_neg other.symm, source] at left
  rw [copied_of_lookups done made left]
  have empty : (setEntry options to_ opt.values.head? opt.type).values = [] := if_neg refused
  rw [same_read_values (b := { opt with values := [] }) empty]
  exact ⟨fun both => both.2.1, fun read => ⟨rfl, read, rfl⟩⟩

/-- A FILE option of that name has its file read, and is a FILE option still. -/
theorem copied_file_iff (registered : findOption options from_ = some opt)
    (other : convertDashes to_ ≠ convertDashes from_)
    (accepted : accepts (validatorOf options (convertDashes to_)) to_ opt.values.head? = true)
    (content : List UInt8) (read : (namedFile opt.type opt.values.head?).bind fs = some content) :
    Copied strtod fs options to_ from_ opt ↔
      ∀ set, fileValues content (convertDashes from_) = some set → set = opt.values := by
  have file : opt.type = .file := by
    by_contra different
    rw [named_file_none different] at read
    cases read
  -- no reader takes the values of a file option
  have readAny : ∀ target, SameRead strtod opt.type target opt := by
    intro target
    rw [file]
    trivial
  have source : lookup options (convertDashes from_) = some opt := by
    rw [← find_option_eq]
    exact registered
  have done := copy_done fs to_ registered fun same => absurd same other
  have lookups := fun key => set_option_lookup_file fs options to_ opt.values.head? opt.type key
    content accepted read
  have made := lookups (convertDashes to_)
  have left := lookups (convertDashes from_)
  simp only [if_true, if_neg other.symm, source, Option.getD_some] at made left
  have target : ∃ target, lookup (setOption fs options to_ opt.values.head? opt.type).1
      (convertDashes to_) = some target ∧ target.type = opt.type := by
    rw [made]
    cases fileValues content (convertDashes to_) with
    | none => exact ⟨_, rfl, rfl⟩
    | some values => exact ⟨_, rfl, rfl⟩
  obtain ⟨target, made, typed⟩ := target
  cases set : fileValues content (convertDashes from_) with
  | none =>
      rw [set] at left
      rw [copied_of_lookups done made left]
      exact iff_of_true ⟨typed, readAny target, rfl⟩ fun values sets => nomatch sets
  | some values =>
      rw [set] at left
      rw [copied_of_lookups done made left]
      constructor
      · rintro ⟨_, _, unchanged⟩ sets same
        cases same
        exact congrArg OptionEntry.values unchanged
      · intro keeps
        exact ⟨typed, readAny target, by rw [keeps values rfl]⟩

theorem copied_accepted_iff (zero : strtod [] = 0) (registered : findOption options from_ = some opt)
    (other : convertDashes to_ ≠ convertDashes from_)
    (accepted : accepts (validatorOf options (convertDashes to_)) to_ opt.values.head? = true) :
    Copied strtod fs options to_ from_ opt ↔
      TextStands strtod opt.type opt.values ∧
        FileKeeps fs opt.type opt.values (convertDashes from_) := by
  cases read : (namedFile opt.type opt.values.head?).bind fs with
  | none =>
      have done := copy_done fs to_ registered fun same => absurd same other
      have kept : (setEntry options to_ opt.values.head? opt.type).values =
          (optionValues opt.type opt.values.head?).getD [] := if_pos accepted
      have source : lookup options (convertDashes from_) = some opt := by
        rw [← find_option_eq]
        exact registered
      have lookups := fun key => set_option_lookup fs options to_ opt.values.head? opt.type key
        fun _ => read
      have made := lookups (convertDashes to_)
      have left := lookups (convertDashes from_)
      rw [if_pos rfl] at made
      rw [if_neg other.symm, source] at left
      have unread : FileKeeps fs opt.type opt.values (convertDashes from_) := by
        intro content set opened
        rw [read] at opened
        cases opened
      rw [copied_of_lookups done made left, text_read zero opt.type kept]
      exact ⟨fun both => ⟨both.2.1, unread⟩, fun both => ⟨rfl, both.1, rfl⟩⟩
  | some content =>
      have file : opt.type = .file := by
        by_contra different
        rw [named_file_none different] at read
        cases read
      have stands : TextStands strtod opt.type opt.values := by
        rw [file]
        trivial
      rw [copied_file_iff registered other accepted content read]
      simp only [stands, true_and, FileKeeps, read, Option.some.injEq]
      exact ⟨fun keeps _ set here => here ▸ keeps set, fun keeps set => keeps content set rfl⟩

theorem copied_iff (strtod : Text → Double) (zero : strtod [] = 0) (fs : FileSystem)
    (options : Registry) (to_ from_ : Text) (opt : OptionEntry)
    (registered : findOption options from_ = some opt) :
    Copied strtod fs options to_ from_ opt ↔ CopyHolds strtod fs options to_ from_ opt := by
  unfold CopyHolds
  split
  · rename_i same
    exact copied_self_iff registered same
  · rename_i other
    split
    · rename_i accepted
      exact copied_accepted_iff zero registered other accepted
    · rename_i refused
      exact copied_refused_iff registered other refused

/-- `strtod` on texts of digits. -/
def digitsRead (value : Text) : Nat := decimal (value.takeWhile isdigit)

def fourThreads : OptionEntry :=
  { name := text "threads", type := .int, values := [text "4"], validate := none }

theorem copied_iff_threads :
    (digitsRead [] = 0 ∧ findOption [fourThreads] (text "threads") = some fourThreads) ∧
      (Copied digitsRead noFiles [fourThreads] (text "copy") (text "threads") fourThreads ↔
        CopyHolds digitsRead noFiles [fourThreads] (text "copy") (text "threads") fourThreads) :=
  ⟨⟨rfl, rfl⟩, copied_iff digitsRead rfl noFiles [fourThreads] (text "copy") (text "threads")
    fourThreads rfl⟩

def switchedOff : OptionEntry :=
  { name := text "debug", type := .bool, values := [], validate := none }

def twoItems : OptionEntry :=
  { name := text "plugins", type := .list, values := [text "a", text "b"], validate := none }

/-- A BOOL option that is off is copied as on, and of a list the first item only. -/
theorem off_copied_on :
    (sbOptCopy noFiles [switchedOff] (text "copy") (text "debug")).map
        (fun result => valuesOf result.1 (text "copy")) = .ok (some [text "on"]) ∧
      ¬ Copied digitsRead noFiles [switchedOff] (text "copy") (text "debug") switchedOff ∧
      (sbOptCopy noFiles [twoItems] (text "copy") (text "plugins")).map
        (fun result => valuesOf result.1 (text "copy")) = .ok (some [text "a"]) := by
  refine ⟨rfl, fun copied => ?_, rfl⟩
  have stands := (copied_accepted_iff rfl rfl (by decide) rfl).mp copied
  obtain ⟨⟨v, rest, values, _⟩, _⟩ := stands
  cases values
end Exact
end PteSysbench.OptionCopy
