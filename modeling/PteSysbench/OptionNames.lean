import PteSysbench.OptionRegistry

/-!
The option list under any sequence of `add_option`, `set_option` and `remove_option`:
one entry a name, whichever of dash and underscore it is spelled with, and no call
reaches another entry unless it reads a configuration file.
-/

namespace PteSysbench.OptionNames

open OptionRegistry

/-- The list without the entry, or as it was; the call returns 1 then. -/
def removeOption (options : Registry) (name : Text) : Registry × Bool :=
  match findOption options name with
  | none => (options, true)
  | some _ => (options.eraseP fun opt => optNameCmp opt.name name == 0, false)

inductive Call where
  | add (name : Text)
  | set (name : Text) (value : Option Text) (type : ArgType)
  | remove (name : Text)

def Call.name : Call → Text
  | .add name | .set name _ _ | .remove name => name

def call (fs : FileSystem) (options : Registry) : Call → Registry
  | .add name => addOption options name
  | .set name value type => (setOption fs options name value type).1
  | .remove name => (removeOption options name).1

/-- A name in the spelling of the list. -/
def key (opt : OptionEntry) : Text := convertDashes opt.name

/-- No name stands in the list twice. -/
def Unique (options : Registry) : Prop := (options.map key).Nodup

/-- The other entries, in order. -/
def others (name : Text) (options : Registry) : Registry :=
  options.filter fun opt => !decide (key opt = convertDashes name)

/-- The file that the call reads: its validator, if it has one, has taken the value. -/
def readFile (fs : FileSystem) (options : Registry) : Call → Option (List UInt8)
  | .set name value type =>
      if accepts (validatorOf options (convertDashes name)) name value then
        (namedFile type value).bind fs
      else none
  | _ => none

/-- What of an entry no file changes. -/
def shape (opt : OptionEntry) : Text × ArgType × Option Validator :=
  (opt.name, opt.type, opt.validate)

/-! Single edits of the list. -/
section Edits
variable {options : Registry} {name : Text}

theorem cmp_eq_key (opt : OptionEntry) (name : Text) :
    (optNameCmp opt.name name == 0) = decide (key opt = convertDashes name) := by
  rw [beq_eq_decide]
  exact decide_eq_decide.mpr (opt_name_cmp_eq_zero _ _)

theorem add_cases (options : Registry) (name : Text) :
    addOption options name = options ∨
      (∀ opt ∈ options, key opt ≠ convertDashes name) ∧
        addOption options name = options ++ [newOption name] := by
  rw [addOption, findOption]
  cases found : options.find? fun opt => optNameCmp opt.name name == 0 with
  | some opt => exact .inl rfl
  | none =>
      refine .inr ⟨fun opt member same => ?_, rfl⟩
      have apart := List.find?_eq_none.mp found opt member
      rw [cmp_eq_key] at apart
      exact apart (decide_eq_true same)

theorem key_new (name : Text) : key (newOption name) = convertDashes name :=
  convert_dashes_twice name

theorem add_unique (unique : Unique options) (name : Text) : Unique (addOption options name) := by
  rcases add_cases options name with same | ⟨fresh, added⟩
  · rwa [same]
  · rw [added, Unique, List.map_append, List.map_singleton, key_new]
    refine List.nodup_append.mpr ⟨unique, List.pairwise_singleton _ _, ?_⟩
    intro other member own inNew same
    obtain ⟨opt, inside, rfl⟩ := List.mem_map.mp member
    exact fresh opt inside (same.trans (List.mem_singleton.mp inNew))

theorem add_others (options : Registry) (name : Text) :
    others name (addOption options name) = others name options := by
  rcases add_cases options name with same | ⟨_, added⟩
  · rw [same]
  · simp [added, others, key_new]

theorem update_map {Part : Type*} (part : OptionEntry → Part)
    (change : OptionEntry → OptionEntry) (kept : ∀ opt, part (change opt) = part opt)
    (name : Text) (options : Registry) :
    (updateOption change name options).map part = options.map part := by
  induction options with
  | nil => rfl
  | cons opt rest ih =>
      rw [updateOption]
      split
      · rw [List.map_cons, kept, List.map_cons]
      · rw [List.map_cons, ih, List.map_cons]

theorem update_unique (unique : Unique options) (change : OptionEntry → OptionEntry)
    (kept : ∀ opt, (change opt).name = opt.name) (name : Text) :
    Unique (updateOption change name options) := by
  rw [Unique, update_map key change fun opt => by rw [key, kept, key]]
  exact unique

theorem update_others (change : OptionEntry → OptionEntry)
    (kept : ∀ opt, (change opt).name = opt.name) (name : Text) (options : Registry) :
    others name (updateOption change name options) = others name options := by
  induction options with
  | nil => rfl
  | cons opt rest ih =>
      simp only [others] at ih ⊢
      by_cases here : key opt = convertDashes name
      · have changed : key (change opt) = convertDashes name := by rw [key, kept, ← key, here]
        have cmp := (opt_name_cmp_eq_zero _ _).mpr here
        simp [updateOption, cmp, here, changed]
      · have cmp := (opt_name_cmp_eq_zero _ _).not.mpr here
        simp [updateOption, cmp, here, ih]

theorem remove_unique (unique : Unique options) (name : Text) :
    Unique (removeOption options name).1 := by
  unfold removeOption
  split
  · exact unique
  · exact (List.eraseP_sublist.map key).nodup unique

theorem erase_others (name : Text) (options : Registry) :
    others name (options.eraseP fun opt => optNameCmp opt.name name == 0) =
      others name options := by
  simp only [others, cmp_eq_key]
  induction options with
  | nil => rfl
  | cons opt rest ih =>
      by_cases here : key opt = convertDashes name
      · simp [here]
      · simp [here, ih]

theorem remove_others (options : Registry) (name : Text) :
    others name (removeOption options name).1 = others name options := by
  unfold removeOption
  split
  · rfl
  · exact erase_others name options

end Edits

/-! Reading a file. -/
section Files
variable {options : Registry}

theorem add_shape (options : Registry) (name : Text) :
    options.map shape <+: (addOption options name).map shape := by
  rcases add_cases options name with same | ⟨_, added⟩
  · simp [same]
  · rw [added, List.map_append]
    exact List.prefix_append _ _

theorem read_lines_unique (lines : List Text) (unique : Unique options) :
    Unique (readConfigLines options lines) := by
  induction lines generalizing options with
  | nil => exact unique
  | cons buf rest ih =>
      rw [readConfigLines]
      cases splitDelimiter buf with
      | none => exact ih unique
      | some parts =>
          obtain ⟨name, value⟩ := parts
          have stored := update_unique (add_unique unique name)
            (fun opt => { opt with values := (readValues .between value).1 }) (fun _ => rfl) name
          dsimp only
          split
          · exact ih stored
          · exact stored

/-- Names, types, validators and order stay as they were; new entries come behind. -/
theorem read_lines_shape (lines : List Text) (options : Registry) :
    options.map shape <+: (readConfigLines options lines).map shape := by
  induction lines generalizing options with
  | nil => exact List.prefix_rfl
  | cons buf rest ih =>
      rw [readConfigLines]
      cases splitDelimiter buf with
      | none => exact ih options
      | some parts =>
          obtain ⟨name, value⟩ := parts
          have stored : options.map shape <+: (updateOption
              (fun opt => { opt with values := (readValues .between value).1 }) name
              (addOption options name)).map shape := by
            rw [update_map shape
              (fun opt => { opt with values := (readValues .between value).1 }) fun _ => rfl]
            exact add_shape options name
          dsimp only
          split
          · exact stored.trans (ih _)
          · exact stored

theorem others_shape (name : Text) (options : Registry) :
    (others name options).map shape = (options.map shape).filter
      fun part => !decide (convertDashes part.1 = convertDashes name) := by
  rw [others, List.filter_map]
  rfl

theorem read_lines_others (lines : List Text) (options : Registry) (name : Text) :
    (others name options).map shape <+:
      (others name (readConfigLines options lines)).map shape := by
  rw [others_shape, others_shape]
  exact (read_lines_shape lines options).filter _

end Files

/-! The calls. -/
section Calls
variable {fs : FileSystem} {options : Registry} {name : Text} {value : Option Text}
  {type : ArgType}

/-- The entry that a call of `set_option` leaves behind; a refused value leaves none. -/
def settled (fs : FileSystem) (options : Registry) (name : Text) (value : Option Text)
    (type : ArgType) : OptionEntry :=
  let opt := (lookup options (convertDashes name)).getD (newOption name)
  let taken :=
    if accepts (validatorOf options (convertDashes name)) name value then
      (optionValues type value).getD []
    else []
  let own := (readFile fs options (.set name value type)).bind fun content =>
    fileValues content (convertDashes name)
  { opt with type, values := own.getD taken }

/-- The list before the file of the call, if it has one, is read. -/
theorem set_parts (fs : FileSystem) (options : Registry) (name : Text) (value : Option Text)
    (type : ArgType) :
    ∃ stored, (setOption fs options name value type).1 =
        (match readFile fs options (.set name value type) with
          | none => stored
          | some content => readConfig content stored) ∧
      (Unique options → Unique stored) ∧ others name stored = others name options := by
  -- the entry is emptied before the validator is asked, and stays so if it refuses
  let clear (opt : OptionEntry) : OptionEntry := { opt with values := [], type := type }
  let cleared := updateOption clear name (addOption options name)
  have unique (before : Unique options) : Unique cleared :=
    update_unique (add_unique before name) clear (fun _ => rfl) name
  have same : others name cleared = others name options := by
    rw [update_others clear (fun _ => rfl), add_others]
  by_cases accepted : accepts (validatorOf options (convertDashes name)) name value = true
  · cases taken : optionValues type value with
    | none =>
        have unnamed : namedFile type value = none := by
          by_contra named
          rw [named_file_taken named] at taken
          cases taken
        refine ⟨cleared, ?_, unique, same⟩
        simp [setOption, validated_cleared, accepted, taken, readFile, unnamed, cleared, clear]
    | some values =>
        let store (opt : OptionEntry) : OptionEntry := { opt with values := values }
        refine ⟨updateOption store name cleared, ?_, fun before => ?_, ?_⟩
        · cases named : namedFile type value with
          | none =>
              simp [setOption, validated_cleared, accepted, taken, readFile, named, cleared,
                clear, store]
          | some filename =>
              cases opened : fs filename <;>
                simp [setOption, validated_cleared, accepted, taken, readFile, named, opened,
                  readConfigFile, cleared, clear, store]
        · exact update_unique (unique before) store (fun _ => rfl) name
        · rw [update_others store (fun _ => rfl), same]
  · refine ⟨cleared, ?_, unique, same⟩
    simp [setOption, validated_cleared, accepted, readFile, cleared, clear]

theorem call_unique (fs : FileSystem) (options : Registry) (c : Call) (unique : Unique options) :
    Unique (call fs options c) := by
  cases c with
  | add name => exact add_unique unique name
  | remove name => exact remove_unique unique name
  | set name value type =>
      obtain ⟨stored, result, kept, _⟩ := set_parts fs options name value type
      rw [call, result]
      cases readFile fs options (.set name value type) with
      | none => exact kept unique
      | some content => exact read_lines_unique _ (kept unique)

theorem calls_unique (fs : FileSystem) (options : Registry) (calls : List Call)
    (unique : Unique options) : Unique (calls.foldl (call fs) options) := by
  induction calls generalizing options with
  | nil => exact unique
  | cons c rest ih => exact ih _ (call_unique fs options c unique)

theorem call_others (fs : FileSystem) (options : Registry) (c : Call)
    (none_ : readFile fs options c = none) :
    others c.name (call fs options c) = others c.name options := by
  cases c with
  | add name => exact add_others options name
  | remove name => exact remove_others options name
  | set name value type =>
      obtain ⟨stored, result, _, same⟩ := set_parts fs options name value type
      rw [call, result, none_]
      exact same

theorem set_read (fs : FileSystem) (options : Registry) (name : Text) (value : Option Text)
    (type : ArgType)
    (accepted : accepts (validatorOf options (convertDashes name)) name value = true) :
    readFile fs options (.set name value type) =
      (Command.mk (convertDashes name) value type).file fs := by
  rw [readFile, if_pos accepted, Command.file]

theorem set_found (fs : FileSystem) (options : Registry) (name : Text) (value : Option Text)
    (type : ArgType) (spelling : Text) (same : convertDashes spelling = convertDashes name) :
    findOption (setOption fs options name value type).1 spelling =
      some (settled fs options name value type) := by
  rw [find_option_eq, same]
  by_cases accepted : accepts (validatorOf options (convertDashes name)) name value = true
  · obtain ⟨stored, entries, result⟩ := set_option_cases fs type accepted
    have own := entries (convertDashes name)
    rw [if_pos rfl] at own
    simp only [result, settled, set_read fs options name value type accepted, accepted,
      ↓reduceIte]
    cases (Command.mk (convertDashes name) value type).file fs with
    | none => exact own
    | some content =>
        simp only [readConfig, read_config_lines_lookup, own, Option.bind_some, fileValues,
          Command.values]
        cases lineValues (convertDashes name) (fgetsAll [] (maxStrLen - 1) content) <;> rfl
  · have cleared := lookup_cleared options name (convertDashes name) type
    rw [if_pos rfl] at cleared
    simp only [setOption, validated_cleared, accepted, settled, readFile, ↓reduceIte,
      Bool.false_eq_true, Option.bind_none, Option.getD_none]
    exact cleared

/-- A file gives the entries its lines name the values of these lines; it adds those that
are missing behind the others. -/
theorem call_read (fs : FileSystem) (options : Registry) (c : Call) (content : List UInt8)
    (some_ : readFile fs options c = some content) :
    (others c.name options).map shape <+: (others c.name (call fs options c)).map shape ∧
      (∀ other, other ≠ convertDashes c.name → fileValues content other = none →
        lookup (call fs options c) other = lookup options other) ∧
      ∀ other values, other ≠ convertDashes c.name → fileValues content other = some values →
        lookup (call fs options c) other =
          some { (lookup options other).getD (newOption other) with values := values } := by
  cases c with
  | add name => cases some_
  | remove name => cases some_
  | set name value type =>
      obtain ⟨stored, result, _, same⟩ := set_parts fs options name value type
      have accepted : accepts (validatorOf options (convertDashes name)) name value = true := by
        by_contra refused
        simp [readFile, refused] at some_
      obtain ⟨before, entries, found⟩ := set_option_cases fs type accepted
      rw [some_] at result
      rw [← set_read fs options name value type accepted, some_] at found
      refine ⟨?_, fun other apart unread => ?_, fun other values apart read => ?_⟩
      · simp only [call, result, Call.name, ← same]
        exact read_lines_others _ stored name
      · rw [fileValues] at unread
        have untouched := (entries other).trans (if_neg apart)
        simp only [call, found, readConfig, read_config_lines_lookup, unread, untouched]
      · rw [fileValues] at read
        have untouched := (entries other).trans (if_neg apart)
        simp only [call, found, readConfig, read_config_lines_lookup, read, untouched]

/-- The registry under every sequence of calls. -/
theorem registry_kept (fs : FileSystem) :
    (∀ calls : List Call, Unique (calls.foldl (call fs) [])) ∧
    (∀ s t, optNameCmp s t = 0 ↔ convertDashes s = convertDashes t) ∧
    (∀ options name value type spelling, convertDashes spelling = convertDashes name →
      findOption (setOption fs options name value type).1 spelling =
        some (settled fs options name value type)) ∧
    (∀ options c, readFile fs options c = none →
      others c.name (call fs options c) = others c.name options) ∧
    ∀ options c content, readFile fs options c = some content →
      (others c.name options).map shape <+: (others c.name (call fs options c)).map shape ∧
      (∀ other, other ≠ convertDashes c.name → fileValues content other = none →
        lookup (call fs options c) other = lookup options other) ∧
      ∀ other values, other ≠ convertDashes c.name → fileValues content other = some values →
        lookup (call fs options c) other =
          some { (lookup options other).getD (newOption other) with values := values } := by
  refine ⟨fun calls => ?_, opt_name_cmp_eq_zero, set_found fs, call_others fs, call_read fs⟩
  exact calls_unique fs [] calls List.Pairwise.nil

/-- A configuration file with one line. -/
def sevenThreads : FileSystem := fun _ => some ((text "threads=7\n").map Subtype.val)

def fourThreads : Registry := (setOption noFiles [] (text "threads") (some (text "4")) .int).1

/-- Setting the file of an option changes another option. -/
theorem file_changes_another :
    (others (text "config-file") fourThreads).map OptionEntry.values = [[text "4"]] ∧
      (others (text "config-file") (call sevenThreads fourThreads
        (.set (text "config-file") (some (text "f")) .file))).map OptionEntry.values =
        [[text "7"]] := by
  decide +kernel

end Calls
end PteSysbench.OptionNames
