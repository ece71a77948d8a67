import PteSysbench.LastWriter

/-!
The option list of `sb_options.c`: `add_option` and `find_option` under names in
which dashes and underscores are the same, `set_option`, `sb_register_arg_set`
and the reader of configuration files.
-/

namespace PteSysbench.OptionRegistry

open LastWriter

/-- A `char` of a C string, before its terminator. -/
abbrev CChar := {c : UInt8 // c ≠ 0}

abbrev Text := List CChar

/-- The string in a buffer. -/
def cString : List UInt8 → Text
  | [] => []
  | c :: rest => if terminator : c = 0 then [] else ⟨c, terminator⟩ :: cString rest

def text (s : String) : Text := cString (s.toList.map fun c => c.toNat.toUInt8)

def dash : CChar := ⟨45, by decide⟩
def underscore : CChar := ⟨95, by decide⟩

/-- VALUE_DELIMITER. -/
def valueDelimiter : CChar := ⟨61, by decide⟩

/-- VALUE_SEPARATOR. -/
def valueSeparator : CChar := ⟨44, by decide⟩

/-- COMMENT_CHAR. -/
def commentChar : CChar := ⟨35, by decide⟩

def singleQuote : CChar := ⟨39, by decide⟩
def doubleQuote : CChar := ⟨34, by decide⟩

/-- `isspace` in the C locale. -/
def isspace (c : CChar) : Bool := decide (c.val ∈ [9, 10, 11, 12, 13, 32])

def convertDashes (name : Text) : Text := name.map fun c => if c = dash then underscore else c

/-- The `char` is signed. -/
def charValue (c : CChar) : Int := c.val.toBitVec.toInt

def optNameCmp : Text → Text → Int
  | [], [] => 0
  | [], b :: _ => 0 - charValue b
  | a :: _, [] => charValue a - 0
  | a :: s, b :: t =>
      if a = b then optNameCmp s t
      else if (a ≠ dash ∧ a ≠ underscore) ∨ (b ≠ dash ∧ b ≠ underscore) then
        charValue a - charValue b
      else optNameCmp s t

inductive ArgType where
  | null
  | bool
  | int
  | size
  | double
  | string
  | list
  | file
  deriving DecidableEq, Repr

/-- `sb_opt_validate_t`. -/
abbrev Validator := Text → Option Text → Bool

/-- `sb_arg_t`. -/
structure Arg where
  name : Text
  value : Option Text
  type : ArgType
  validate : Option Validator

/-- `option_t`. -/
structure OptionEntry where
  name : Text
  type : ArgType
  values : List Text
  validate : Option Validator

abbrev Registry := List OptionEntry

/-- What `fopen` finds under a name. -/
abbrev FileSystem := Text → Option (List UInt8)

def noFiles : FileSystem := fun _ => none

def newOption (name : Text) : OptionEntry :=
  { name := convertDashes name, type := .null, values := [], validate := none }

def findOption (options : Registry) (name : Text) : Option OptionEntry :=
  options.find? fun opt => optNameCmp opt.name name == 0

def addOption (options : Registry) (name : Text) : Registry :=
  match findOption options name with
  | some _ => options
  | none => options ++ [newOption name]

/-- A store through the pointer that `find_option` returns. -/
def updateOption (change : OptionEntry → OptionEntry) (name : Text) : Registry → Registry
  | [] => []
  | opt :: rest =>
      if optNameCmp opt.name name = 0 then change opt :: rest
      else opt :: updateOption change name rest

/-! `read_config`. -/
section ConfigFile

/-- MAXSTRLEN. -/
def maxStrLen : Nat := 256

/-- The buffers that `fgets` fills in turn: up to a newline, or as much as fits. -/
def fgetsAll (line : List UInt8) (room : Nat) : List UInt8 → List Text
  | [] => if line = [] then [] else [cString line]
  | c :: rest =>
      if c = 10 ∨ room ≤ 1 then cString (line ++ [c]) :: fgetsAll [] (maxStrLen - 1) rest
      else fgetsAll (line ++ [c]) (room - 1) rest

/-- The loop of `read_config` that takes the next character: the one over the text
after the delimiter, the search for a closing quote, the way from there to the
separator, or the one over an unquoted value. -/
inductive ReadMode where
  | between
  | quoted (qc : CChar) (value : Text)
  | skipping
  | bare (value : Text)
  deriving DecidableEq, Repr

/-- The values after the delimiter, and whether every quote is closed. -/
def readValues : ReadMode → Text → List Text × Bool
  | .between, [] => ([], true)
  | .between, c :: rest =>
      if isspace c then readValues .between rest
      else if c = commentChar then ([], true)
      else if c = singleQuote ∨ c = doubleQuote then readValues (.quoted c []) rest
      else if c = valueSeparator then
        let (values, complete) := readValues .between rest
        ([] :: values, complete)
      else readValues (.bare [c]) rest
  | .quoted _ _, [] => ([], false)
  | .quoted qc value, c :: rest =>
      if c = qc then
        let (values, complete) := readValues .skipping rest
        (value :: values, complete)
      else readValues (.quoted qc (value ++ [c])) rest
  | .skipping, [] => ([], true)
  | .skipping, c :: rest =>
      if c = valueSeparator then readValues .between rest else readValues .skipping rest
  | .bare value, [] => ([value], true)
  | .bare value, c :: rest =>
      if c = valueSeparator ∨ isspace c then
        let (values, complete) := readValues .between rest
        (value :: values, complete)
      else readValues (.bare (value ++ [c])) rest

/-- `strchr` for the delimiter: the text before it, and the one after it. -/
def splitDelimiter : Text → Option (Text × Text)
  | [] => none
  | c :: rest =>
      if c = valueDelimiter then some ([], rest)
      else (splitDelimiter rest).map fun (before, after) => (c :: before, after)

def readConfigLines (options : Registry) : List Text → Registry
  | [] => options
  | buf :: rest =>
      match splitDelimiter buf with
      | none => readConfigLines options rest
      | some (name, value) =>
          let (values, complete) := readValues .between value
          let stored := updateOption (fun opt => { opt with values := values }) name
            (addOption options name)
          -- an open quote ends the reading of the file
          if complete then readConfigLines stored rest else stored

def readConfig (content : List UInt8) (options : Registry) : Registry :=
  readConfigLines options (fgetsAll [] (maxStrLen - 1) content)

/-- A file that cannot be opened is reported and skipped. -/
def readConfigFile (fs : FileSystem) (filename : Text) (options : Registry) : Registry :=
  match fs filename with
  | none => options
  | some content => readConfig content options

end ConfigFile

/-! `set_option`. -/
section SetOption

/-- `strtok(value, ",")` to the end of the text. -/
def strtok (token : Text) : Text → List Text
  | [] => if token = [] then [] else [token]
  | c :: rest =>
      if c = valueSeparator then
        if token = [] then strtok [] rest else token :: strtok [] rest
      else strtok (token ++ [c]) rest

/-- The values an option of the type keeps of a text, if it takes it. -/
def optionValues (type : ArgType) (value : Option Text) : Option (List Text) :=
  if type ≠ .bool ∧ (value = none ∨ value = some []) then some []
  else
    match type, value with
    | .bool, none => some [text "on"]
    | .bool, some v =>
        if v = text "on" ∨ v = text "true" ∨ v = text "1" then some [text "on"]
        else if v = text "off" ∨ v = text "false" ∨ v = text "0" then some []
        else none
    | .int, some v | .size, some v | .double, some v | .string, some v => some [v]
    | .list, some v => some (strtok [] v)
    | .file, some _ => some []
    | _, _ => none

/-- The file that setting an option of the type reads. -/
def namedFile (type : ArgType) (value : Option Text) : Option Text :=
  match type, value with
  | .file, some (c :: rest) => some (c :: rest)
  | _, _ => none

def validated (options : Registry) (name : Text) (value : Option Text) : Bool :=
  match (findOption options name).bind OptionEntry.validate with
  | none => true
  | some validate => validate name value

/-- The list after the call, and whether it returned the option. -/
def setOption (fs : FileSystem) (options : Registry) (name : Text) (value : Option Text)
    (type : ArgType) : Registry × Bool :=
  let cleared := updateOption (fun opt => { opt with values := [], type := type }) name
    (addOption options name)
  if validated cleared name value then
    match optionValues type value with
    | none => (cleared, false)
    | some values =>
        let stored := updateOption (fun opt => { opt with values := values }) name cleared
        match namedFile type value with
        | none => (stored, true)
        | some filename => (readConfigFile fs filename stored, true)
  else (cleared, false)

/-- Every entry gets the validator of the first one of its set. -/
def registerArgs (fs : FileSystem) (validate : Option Validator) (options : Registry) :
    List Arg → Registry × Bool
  | [] => (options, true)
  | arg :: rest =>
      match setOption fs options arg.name arg.value arg.type with
      | (stored, false) => (stored, false)
      | (stored, true) =>
          registerArgs fs validate
            (updateOption (fun opt => { opt with validate := validate }) arg.name stored) rest

def sbRegisterArgSet (fs : FileSystem) (options : Registry) (set : List Arg) : Registry × Bool :=
  registerArgs fs (set.head?.bind Arg.validate) options set

end SetOption

/-! Names. -/
section Names

theorem char_value_injective (a b : CChar) (same : charValue a = charValue b) : a = b := by
  apply Subtype.ext
  exact UInt8.toBitVec_inj.mp (BitVec.toInt_inj.mp same)

theorem char_value_ne_zero (a : CChar) : charValue a ≠ 0 := by
  intro zero
  apply a.property
  apply UInt8.toBitVec_inj.mp
  exact BitVec.toInt_inj.mp zero

/-- Two different characters are one in a name only as dash and underscore. -/
theorem converted_eq_iff (a b : CChar) (apart : a ≠ b) :
    (if a = dash then underscore else a) = (if b = dash then underscore else b) ↔
      ¬ ((a ≠ dash ∧ a ≠ underscore) ∨ (b ≠ dash ∧ b ≠ underscore)) := by
  have differ : dash ≠ underscore := by decide
  by_cases left : a = dash
  · subst left
    by_cases right : b = underscore
    · simp [right, differ.symm]
    · simp [Ne.symm apart, Ne.symm right, right]
  · by_cases right : b = dash
    · simp [left, right]
    · simp [left, right, apart]
      rintro rfl rfl
      exact apart rfl

theorem opt_name_cmp_eq_zero (s t : Text) :
    optNameCmp s t = 0 ↔ convertDashes s = convertDashes t := by
  induction s generalizing t with
  | nil =>
      cases t with
      | nil => simp [optNameCmp]
      | cons b t => simp [optNameCmp, convertDashes, char_value_ne_zero]
  | cons a s ih =>
      cases t with
      | nil => simp [optNameCmp, convertDashes, char_value_ne_zero]
      | cons b t =>
          by_cases same : a = b
          · simp [optNameCmp, same, ih, convertDashes]
          · have nonzero : charValue a - charValue b ≠ 0 := fun zero =>
              same (char_value_injective a b (by omega))
            -- different characters: equal only as a dash and an underscore
            have converted := converted_eq_iff a b same
            by_cases mismatch : (a ≠ dash ∧ a ≠ underscore) ∨ (b ≠ dash ∧ b ≠ underscore)
            · simp only [optNameCmp, same, mismatch, ↓reduceIte, convertDashes, List.map_cons,
                List.cons.injEq, converted, not_true_eq_false, false_and, iff_false]
              exact nonzero
            · simp only [optNameCmp, same, mismatch, ↓reduceIte, ih, convertDashes, List.map_cons,
                List.cons.injEq, converted, not_false_eq_true, true_and]

theorem convert_dashes_twice (name : Text) :
    convertDashes (convertDashes name) = convertDashes name := by
  simp only [convertDashes, List.map_map, List.map_inj_left, Function.comp_apply]
  intro c _
  by_cases dashed : c = dash
  · simp [dashed, show underscore ≠ dash by decide]
  · simp [dashed]

end Names

/-! Entries by converted name. -/
section Lookup
variable {options : Registry} {name : Text}

/-- The first entry whose name converts to this one. -/
def lookup (options : Registry) (key : Text) : Option OptionEntry :=
  options.find? fun opt => decide (convertDashes opt.name = key)

theorem find_option_eq (options : Registry) (name : Text) :
    findOption options name = lookup options (convertDashes name) := by
  simp only [findOption, lookup, beq_eq_decide, opt_name_cmp_eq_zero]

theorem lookup_add (options : Registry) (name key : Text) :
    lookup (addOption options name) key =
      if key = convertDashes name then some ((lookup options key).getD (newOption name))
      else lookup options key := by
  rw [addOption, find_option_eq]
  cases found : lookup options (convertDashes name) with
  | some opt =>
      by_cases same : key = convertDashes name
      · simp [same, found]
      · simp [same]
  | none =>
      have fresh : convertDashes (newOption name).name = convertDashes name :=
        convert_dashes_twice name
      by_cases same : key = convertDashes name
      · subst same
        simp only [lookup] at found
        simp [lookup, List.find?_append, found, fresh]
      · simp [lookup, List.find?_append, fresh, same, Ne.symm same]

theorem lookup_update (options : Registry) (name key : Text) (change : OptionEntry → OptionEntry)
    (keeps : ∀ opt, (change opt).name = opt.name) :
    lookup (updateOption change name options) key =
      if key = convertDashes name then (lookup options key).map change
      else lookup options key := by
  induction options with
  | nil => simp [updateOption, lookup]
  | cons opt rest ih =>
      simp only [lookup] at ih
      by_cases here : convertDashes opt.name = convertDashes name
      · by_cases same : key = convertDashes name
        · simp [updateOption, lookup, opt_name_cmp_eq_zero, keeps, here, same]
        · simp [updateOption, lookup, opt_name_cmp_eq_zero, keeps, here, same, Ne.symm same]
      -- the walk goes on: this entry may still be the one looked up
      · by_cases mine : convertDashes opt.name = key
        · have other : key ≠ convertDashes name := fun same => here (mine.trans same)
          simp [updateOption, lookup, opt_name_cmp_eq_zero, mine, other]
        · simp [updateOption, lookup, opt_name_cmp_eq_zero, here, mine, ih]

/-- What an option that is added or found, then changed, looks like to later calls. -/
theorem lookup_edit (options : Registry) (name key : Text) (change : OptionEntry → OptionEntry)
    (keeps : ∀ opt, (change opt).name = opt.name) :
    lookup (updateOption change name (addOption options name)) key =
      if key = convertDashes name then
        some (change ((lookup options key).getD (newOption name)))
      else lookup options key := by
  rw [lookup_update _ _ _ _ keeps, lookup_add]
  by_cases same : key = convertDashes name <;> simp [same]

def valuesOf (options : Registry) (key : Text) : Option (List Text) :=
  (lookup options key).map OptionEntry.values

def typeOf (options : Registry) (key : Text) : Option ArgType :=
  (lookup options key).map OptionEntry.type

def validatorOf (options : Registry) (key : Text) : Option Validator :=
  (lookup options key).bind OptionEntry.validate

end Lookup

/-! What a configuration file does to an option. -/
section FileLines

/-- The values that the lines of a file set for an option. -/
def lineValues (key : Text) : List Text → Option (List Text)
  | [] => none
  | buf :: rest =>
      match splitDelimiter buf with
      | none => lineValues key rest
      | some (name, value) =>
          let (values, complete) := readValues .between value
          (if complete then lineValues key rest else none).or
            (if convertDashes name = key then some values else none)

def fileValues (content : List UInt8) (key : Text) : Option (List Text) :=
  lineValues key (fgetsAll [] (maxStrLen - 1) content)

theorem lookup_line (options : Registry) (name key : Text) (values : List Text) :
    lookup (updateOption (fun opt => { opt with values := values }) name
        (addOption options name)) key =
      if key = convertDashes name then
        some { (lookup options key).getD (newOption name) with values := values }
      else lookup options key :=
  lookup_edit options name key _ fun _ => rfl

/-- The lines of a file leave an option the values that the last of them sets, and add it
without a type if nobody registered it. -/
theorem read_config_lines_lookup (lines : List Text) (options : Registry) (key : Text) :
    lookup (readConfigLines options lines) key =
      match lineValues key lines with
      | none => lookup options key
      | some values =>
          some { (lookup options key).getD (newOption key) with values := values } := by
  induction lines generalizing options with
  | nil => rfl
  | cons buf rest ih =>
      cases delimited : splitDelimiter buf with
      | none => simp only [readConfigLines, lineValues, delimited, ih]
      | some parts =>
          obtain ⟨name, value⟩ := parts
          have added : newOption (convertDashes name) = newOption name := by
            simp only [newOption, convert_dashes_twice]
          simp only [readConfigLines, lineValues, delimited]
          by_cases same : convertDashes name = key
          · subst same
            cases (readValues .between value).2
            -- an unclosed quote ends the file; otherwise the later lines win
            · simp [lookup_line, added]
            · cases later : lineValues (convertDashes name) rest <;>
                simp [ih, later, lookup_line, added]
          · cases (readValues .between value).2
            · simp [lookup_line, same, Ne.symm same]
            · simp [ih, lookup_line, same, Ne.symm same]

theorem read_config_lines_values (lines : List Text) (options : Registry) (key : Text) :
    valuesOf (readConfigLines options lines) key =
      (lineValues key lines).or (valuesOf options key) := by
  rw [valuesOf, read_config_lines_lookup]
  cases lineValues key lines <;> rfl

/-- A line makes an option that nobody registered one without a type. -/
theorem read_config_lines_type (lines : List Text) (options : Registry) (key : Text) :
    typeOf (readConfigLines options lines) key =
      (typeOf options key).or ((lineValues key lines).map fun _ => .null) := by
  rw [typeOf, read_config_lines_lookup]
  cases lineValues key lines with
  | none => simp [typeOf]
  | some values => cases found : lookup options key <;> simp [typeOf, found, newOption]

theorem read_config_lines_validator (lines : List Text) (options : Registry) (key : Text) :
    validatorOf (readConfigLines options lines) key = validatorOf options key := by
  rw [validatorOf, read_config_lines_lookup]
  cases lineValues key lines with
  | none => rfl
  | some values => cases found : lookup options key <;> simp [validatorOf, found, newOption]

end FileLines

/-! What `set_option` does to an option. -/
section Commands

/-- A call of `set_option` under the converted name. -/
structure Command where
  name : Text
  value : Option Text
  type : ArgType
  deriving DecidableEq

namespace Command

/-- Values that are not taken leave the option without any. -/
def values (command : Command) : List Text :=
  (optionValues command.type command.value).getD []

/-- The contents of the file that the call reads. -/
def file (fs : FileSystem) (command : Command) : Option (List UInt8) :=
  (namedFile command.type command.value).bind fs

def assignment (fs : FileSystem) (command : Command) : Assignment Text (List Text) :=
  { name := command.name
    value := command.values
    bulk := fun key => (command.file fs).bind fun content => fileValues content key }

end Command

variable {fs : FileSystem} {options : Registry} {name : Text} {value : Option Text}
  {type : ArgType}

def accepts (validate : Option Validator) (name : Text) (value : Option Text) : Bool :=
  match validate with
  | none => true
  | some validate => validate name value

theorem lookup_cleared (options : Registry) (name key : Text) (type : ArgType) :
    lookup (updateOption (fun opt => { opt with values := [], type := type }) name
        (addOption options name)) key =
      if key = convertDashes name then
        some { (lookup options key).getD (newOption name) with values := [], type := type }
      else lookup options key :=
  lookup_edit options name key _ fun _ => rfl

theorem validated_cleared : validated (updateOption
      (fun opt => { opt with values := [], type := type }) name (addOption options name))
      name value =
    accepts (validatorOf options (convertDashes name)) name value := by
  rw [validated, find_option_eq, lookup_cleared, if_pos rfl]
  cases found : lookup options (convertDashes name) with
  | none => simp [validatorOf, found, newOption, accepts]
  | some opt => cases checked : opt.validate <;> simp [validatorOf, found, checked, accepts]

theorem named_file_taken (taken : namedFile type value ≠ none) :
    optionValues type value = some [] := by
  unfold namedFile at taken
  split at taken
  · simp [optionValues]
  · exact absurd rfl taken

theorem named_file_none (other : type ≠ .file) : namedFile type value = none := by
  unfold namedFile
  split
  · exact absurd rfl other
  · rfl

/-- The entries before the file of the option, if it has one, is read. -/
theorem set_option_cases (fs : FileSystem) (type : ArgType)
    (accepted : accepts (validatorOf options (convertDashes name)) name value = true) :
    ∃ stored, (∀ key, lookup stored key =
      if key = convertDashes name then
        some { (lookup options key).getD (newOption name) with
          values := (Command.mk (convertDashes name) value type).values
          type := type }
      else lookup options key) ∧
    setOption fs options name value type =
      (match (Command.mk (convertDashes name) value type).file fs with
        | none => stored
        | some content => readConfig content stored, (optionValues type value).isSome) := by
  rw [setOption, validated_cleared, if_pos accepted]
  cases taken : optionValues type value with
  | none =>
      have unnamed : namedFile type value = none := by
        by_contra named
        rw [named_file_taken named] at taken
        cases taken
      -- the old values are gone although the new one is not taken
      refine ⟨updateOption (fun opt => { opt with values := [], type := type }) name
        (addOption options name), ?_, by simp [Command.file, unnamed]⟩
      intro key
      simp only [lookup_cleared, Command.values, taken, Option.getD_none]
  | some values =>
      refine ⟨updateOption (fun opt => { opt with values := values }) name
        (updateOption (fun opt => { opt with values := [], type := type }) name
          (addOption options name)), ?_, ?_⟩
      · intro key
        have second := lookup_update (updateOption
          (fun opt => { opt with values := [], type := type })
          name (addOption options name)) name key (fun opt => { opt with values := values })
          fun _ => rfl
        rw [second, lookup_cleared]
        by_cases same : key = convertDashes name
        · simp [same, Command.values, taken]
        · simp [same]
      · cases named : namedFile type value with
        | none => simp [Command.file, named]
        | some filename =>
            cases opened : fs filename <;> simp [Command.file, named, opened, readConfigFile]

theorem set_option_done (fs : FileSystem) (type : ArgType)
    (accepted : accepts (validatorOf options (convertDashes name)) name value = true) :
    (setOption fs options name value type).2 = (optionValues type value).isSome := by
  obtain ⟨stored, _, result⟩ := set_option_cases fs type accepted
  rw [result]

theorem set_option_values (fs : FileSystem) (type : ArgType) (key : Text)
    (accepted : accepts (validatorOf options (convertDashes name)) name value = true) :
    valuesOf (setOption fs options name value type).1 key =
      (((Command.mk (convertDashes name) value type).assignment fs).wrote key).or
        (valuesOf options key) := by
  obtain ⟨stored, entries, result⟩ := set_option_cases fs type accepted
  have own : valuesOf stored key =
      (if convertDashes name = key then
        some (Command.mk (convertDashes name) value type).values else none).or
        (valuesOf options key) := by
    rw [valuesOf, entries]
    by_cases same : key = convertDashes name
    · simp [same]
    · simp [valuesOf, same, Ne.symm same]
  rw [result]
  cases opened : (Command.mk (convertDashes name) value type).file fs with
  | none => simp [Assignment.wrote, Command.assignment, opened, own]
  | some content =>
      simp [Assignment.wrote, Command.assignment, opened, own, readConfig,
        read_config_lines_values, fileValues, Option.or_assoc]

theorem set_option_type (fs : FileSystem) (type : ArgType) (key : Text)
    (accepted : accepts (validatorOf options (convertDashes name)) name value = true) :
    typeOf (setOption fs options name value type).1 key =
      (if key = convertDashes name then some type else typeOf options key).or
        ((((Command.mk (convertDashes name) value type).assignment fs).bulk key).map
          fun _ => .null) := by
  obtain ⟨stored, entries, result⟩ := set_option_cases fs type accepted
  have own : typeOf stored key =
      if key = convertDashes name then some type else typeOf options key := by
    rw [typeOf, entries]
    by_cases same : key = convertDashes name
    · simp [same]
    · simp [typeOf, same]
  rw [result]
  cases opened : (Command.mk (convertDashes name) value type).file fs with
  | none => simp [Command.assignment, opened, own]
  | some content =>
      simp [Command.assignment, opened, own, readConfig, read_config_lines_type, fileValues]

theorem set_option_validator (fs : FileSystem) (type : ArgType) (key : Text)
    (accepted : accepts (validatorOf options (convertDashes name)) name value = true) :
    validatorOf (setOption fs options name value type).1 key = validatorOf options key := by
  obtain ⟨stored, entries, result⟩ := set_option_cases fs type accepted
  have own : validatorOf stored key = validatorOf options key := by
    rw [validatorOf, entries]
    by_cases same : key = convertDashes name
    · subst same
      cases found : lookup options (convertDashes name) <;> simp [validatorOf, found, newOption]
    · simp [validatorOf, same]
  rw [result]
  cases opened : (Command.mk (convertDashes name) value type).file fs with
  | none => exact own
  | some content => simp only [readConfig, read_config_lines_validator, own]

theorem set_option_success (done : (setOption fs options name value type).2 = true) :
    accepts (validatorOf options (convertDashes name)) name value = true ∧
      (optionValues type value).isSome = true := by
  by_cases accepted : accepts (validatorOf options (convertDashes name)) name value = true
  · exact ⟨accepted, set_option_done fs type accepted ▸ done⟩
  · rw [setOption, validated_cleared, if_neg accepted] at done
    cases done

end Commands
end PteSysbench.OptionRegistry
