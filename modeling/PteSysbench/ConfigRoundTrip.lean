import PteSysbench.ConfigText
import PteSysbench.OptionNames

/-!
`write_config` and what `read_config` makes of its text. The writer puts a blank
before the delimiter and the reader keeps it as a part of the name; the values and
their order come back.
-/

namespace PteSysbench.ConfigRoundTrip

open ConfigText OptionNames OptionRegistry

/-- `value_t`. -/
structure ConfigValue where
  data : Option Text
  ignore : Bool
  deriving DecidableEq

/-- `option_t`, as far as the writer reads it. -/
structure ConfigOption where
  name : Option Text
  values : List ConfigValue
  ignore : Bool
  deriving DecidableEq

/-! The writer. -/
section Writer

def writeValue (val : ConfigValue) : Text := if val.ignore then [] else val.data.getD []

/-- The separator is printed behind every value but the last of the list. -/
def writeValues : List ConfigValue → Text
  | [] => []
  | [val] => writeValue val
  | val :: next :: rest =>
      writeValue val ++ valueSeparator :: blank :: writeValues (next :: rest)

/-- A line, without its newline. -/
def writeLine (name : Text) (values : List ConfigValue) : Text :=
  name ++ blank :: valueDelimiter :: blank :: writeValues values

/-- The text, and the list with the options that are written marked. -/
def writeConfig : List ConfigOption → Text × List ConfigOption
  | [] => ([], [])
  | opt :: rest =>
      let (printed, left) := writeConfig rest
      match opt.name with
      | none => (printed, opt :: left)
      | some name =>
          if opt.ignore then (printed, opt :: left)
          else
            (writeLine name opt.values ++ newline :: printed, { opt with ignore := true } :: left)

/-- An option of the list without ignore flags. -/
def exported (opt : OptionEntry) : ConfigOption :=
  { name := some opt.name
    values := opt.values.map fun value => { data := some value, ignore := false }
    ignore := false }

def written (options : Registry) : Text := (writeConfig (options.map exported)).1

def line (opt : OptionEntry) : Text := writeLine opt.name (exported opt).values

theorem written_cons (opt : OptionEntry) (rest : Registry) :
    written (opt :: rest) = line opt ++ newline :: written rest := rfl

end Writer

/-- Neither blank, quote, separator, delimiter nor comment. -/
def Word (word : Text) : Prop :=
  word ≠ [] ∧ Clean word ∧ valueSeparator ∉ word ∧ valueDelimiter ∉ word

instance (word : Text) : Decidable (Word word) :=
  inferInstanceAs (Decidable (word ≠ [] ∧ Clean word ∧ valueSeparator ∉ word ∧
    valueDelimiter ∉ word))

/-- An option whose line can be read at all. -/
structure Writable (opt : OptionEntry) : Prop where
  name : Word opt.name
  values : ∀ value ∈ opt.values, Word value
  short : (line opt).length < maxStrLen - 1

structure WellFormed (options : Registry) : Prop where
  writable : ∀ opt ∈ options, Writable opt
  distinct : (options.map OptionEntry.name).Nodup

def nameAndValues (opt : OptionEntry) : Text × List Text := (opt.name, opt.values)

/-- Reading the text into an empty list gives the same names with the same values. -/
def RoundTrips (options : Registry) : Prop :=
  (readConfig ((written options).map Subtype.val) []).map nameAndValues =
    options.map nameAndValues

/-! One line. -/
section Lines
variable {opt : OptionEntry}

theorem fgets_line (front text : Text) (rest : List UInt8) (room : Nat) (oneLine : newline ∉ text)
    (fits : text.length < room) :
    fgetsAll (front.map Subtype.val) room (text.map Subtype.val ++ 10 :: rest) =
      (front ++ text ++ [newline]) :: fgetsAll [] (maxStrLen - 1) rest := by
  induction text generalizing front room with
  | nil =>
      have ended : front.map Subtype.val ++ [10] = (front ++ [newline]).map Subtype.val := by
        simp [newline]
      rw [List.map_nil, List.nil_append, fgetsAll, if_pos (.inl rfl), ended, c_string_text,
        List.append_nil]
  | cons c text ih =>
      obtain ⟨apart, oneLine⟩ := not_or.mp (List.mem_cons.not.mp oneLine)
      rw [List.length_cons] at fits
      have inside : ¬ (c.val = 10 ∨ room ≤ 1) := by
        rintro (ends | full)
        · exact apart (Subtype.ext ends.symm)
        · omega
      have moved : front.map Subtype.val ++ [c.val] = (front ++ [c]).map Subtype.val := by simp
      rw [List.map_cons, List.cons_append, fgetsAll, if_neg inside, moved,
        ih (front ++ [c]) (room - 1) oneLine (by omega)]
      simp

theorem clean_no_newline {word : Text} (clean : Clean word) : newline ∉ word :=
  fun member => absurd (clean newline member).1 (by decide)

theorem write_values_cons (value : Text) (rest : List Text) (more : rest ≠ []) :
    writeValues ((value :: rest).map fun value => { data := some value, ignore := false }) =
      value ++ valueSeparator :: blank ::
        writeValues (rest.map fun value => { data := some value, ignore := false }) := by
  cases rest with
  | nil => exact absurd rfl more
  | cons next rest => rfl

theorem write_values_one_line (values : List Text) (words : ∀ value ∈ values, Word value) :
    newline ∉ writeValues (values.map fun value => { data := some value, ignore := false }) := by
  induction values with
  | nil => simp [writeValues]
  | cons value rest ih =>
      obtain ⟨word, words⟩ := List.forall_mem_cons.mp words
      have absent := clean_no_newline word.2.1
      by_cases more : rest = []
      · subst more
        exact absent
      · rw [write_values_cons value rest more]
        simp [absent, ih words, show newline ≠ valueSeparator by decide,
          show newline ≠ blank by decide]

/-- The values are read back, with the blanks around them. -/
theorem read_written_values (values : List Text) (words : ∀ value ∈ values, Word value) :
    readValues .between (blank ::
      writeValues (values.map fun value => { data := some value, ignore := false }) ++
        [newline]) = (values, true) := by
  have space : isspace blank = true := by decide
  have trail : Blanks [newline] := by
    intro c member
    obtain rfl := List.mem_singleton.mp member
    decide
  induction values with
  | nil => decide
  | cons value rest ih =>
      obtain ⟨⟨some_, clean, absent, _⟩, words⟩ := List.forall_mem_cons.mp words
      rw [List.cons_append, readValues, if_pos space]
      by_cases more : rest = []
      · subst more
        have last := read_last_item value [newline] clean absent trail
        rw [if_neg some_] at last
        exact last
      · rw [write_values_cons value rest more, List.append_assoc, List.cons_append,
          read_item value _ clean absent, ih words]

theorem line_one_line (writable : Writable opt) : newline ∉ line opt := by
  have inName := clean_no_newline writable.name.2.1
  have inValues := write_values_one_line opt.values writable.values
  simp [line, writeLine, exported, inName, inValues, show newline ≠ blank by decide,
    show newline ≠ valueDelimiter by decide]

theorem split_line (writable : Writable opt) :
    splitDelimiter (line opt ++ [newline]) =
      some (opt.name ++ [blank], blank :: writeValues (exported opt).values ++ [newline]) := by
  have absent : valueDelimiter ∉ opt.name ++ [blank] := by
    simp [writable.name.2.2.2, show valueDelimiter ≠ blank by decide]
  have cut := split_delimiter_append (opt.name ++ [blank])
    (blank :: writeValues (exported opt).values ++ [newline]) absent
  simpa [line, writeLine] using cut

end Lines

/-! The whole file. -/
section Files
variable {options : Registry}

/-- The name that a line is read back under. -/
def readName (opt : OptionEntry) : Text := convertDashes opt.name ++ [blank]

/-- What reading the line of an option does to the list. -/
def restore (reg : Registry) (opt : OptionEntry) : Registry :=
  updateOption (fun stored => { stored with values := opt.values }) (opt.name ++ [blank])
    (addOption reg (opt.name ++ [blank]))

theorem read_written (options reg : Registry) (writable : ∀ opt ∈ options, Writable opt) :
    readConfig ((written options).map Subtype.val) reg = options.foldl restore reg := by
  unfold readConfig
  induction options generalizing reg with
  | nil => rfl
  | cons opt rest ih =>
      obtain ⟨here, later⟩ := List.forall_mem_cons.mp writable
      have buffer := fgets_line [] (line opt) ((written rest).map Subtype.val) (maxStrLen - 1)
        (line_one_line here) here.short
      have values := read_written_values opt.values here.values
      rw [List.map_nil, List.nil_append] at buffer
      rw [written_cons, List.map_append, List.map_cons, show newline.val = 10 from rfl, buffer,
        readConfigLines, split_line here]
      simp only [exported, values, ↓reduceIte]
      exact ih _ later

theorem convert_read_name (opt : OptionEntry) :
    convertDashes (opt.name ++ [blank]) = readName opt := by
  simp [convertDashes, readName, show blank ≠ dash by decide]

/-- Every name that comes back ends in a blank. -/
theorem restored_blank (options reg : Registry)
    (before : ∀ stored ∈ reg, blank ∈ stored.name) :
    ∀ stored ∈ options.foldl restore reg, blank ∈ stored.name := by
  induction options generalizing reg with
  | nil => exact before
  | cons opt rest ih =>
      apply ih
      have names : ∀ name ∈ (restore reg opt).map OptionEntry.name, blank ∈ name := by
        rw [restore, update_map OptionEntry.name
          (fun stored => { stored with values := opt.values }) fun _ => rfl]
        intro name member
        obtain ⟨stored, inside, rfl⟩ := List.mem_map.mp member
        rcases add_cases reg (opt.name ++ [blank]) with same | ⟨_, added⟩
        · rw [same] at inside
          exact before stored inside
        · rw [added] at inside
          rcases List.mem_append.mp inside with old | new
          · exact before stored old
          · obtain rfl := List.mem_singleton.mp new
            rw [newOption, convert_read_name, readName]
            exact List.mem_append_right _ List.mem_cons_self
      intro stored member
      exact names _ (List.mem_map_of_mem member)

/-- The text of a list comes back as the list itself only if there is nothing in it. -/
theorem round_trips_iff (wellFormed : WellFormed options) :
    RoundTrips options ↔ options = [] := by
  constructor
  · intro same
    rw [RoundTrips, read_written options [] wellFormed.writable] at same
    cases options with
    | nil => rfl
    | cons opt rest =>
        have first : nameAndValues opt ∈ (opt :: rest).map nameAndValues :=
          List.mem_map_of_mem List.mem_cons_self
        rw [← same] at first
        obtain ⟨stored, member, parts⟩ := List.mem_map.mp first
        have inName := restored_blank (opt :: rest) [] (by simp) stored member
        have name : stored.name = opt.name := congrArg Prod.fst parts
        rw [name] at inName
        have clean := (wellFormed.writable opt List.mem_cons_self).name.2.1
        exact absurd (clean blank inName).1 (by decide)
  · rintro rfl
    rfl

/-- A change under a new name reaches the entry that was just added. -/
theorem update_added (change : OptionEntry → OptionEntry) (name : Text) (reg : Registry)
    (fresh : ∀ stored ∈ reg, key stored ≠ convertDashes name) :
    updateOption change name (addOption reg name) = reg ++ [change (newOption name)] := by
  have none_ : findOption reg name = none := by
    apply List.find?_eq_none.mpr
    intro stored member
    rw [cmp_eq_key]
    simpa using fresh stored member
  have added : addOption reg name = reg ++ [newOption name] := by rw [addOption, none_]
  rw [added]
  clear none_ added
  induction reg with
  | nil =>
      have own : optNameCmp (newOption name).name name = 0 :=
        (opt_name_cmp_eq_zero _ _).mpr (key_new name)
      rw [List.nil_append, updateOption, if_pos own, List.nil_append]
  | cons stored rest ih =>
      obtain ⟨here, later⟩ := List.forall_mem_cons.mp fresh
      have other : optNameCmp stored.name name ≠ 0 := (opt_name_cmp_eq_zero _ _).not.mpr here
      rw [List.cons_append, updateOption, if_neg other, ih later, List.cons_append]

/-- Names that are not one up to dashes and underscores come back one by one, each with
its dashes converted and a blank behind it, and with its values. -/
theorem restored_list (options reg : Registry)
    (apart : (options.map key).Nodup)
    (fresh : ∀ stored ∈ reg, ∀ opt ∈ options, key stored ≠ readName opt) :
    options.foldl restore reg = reg ++ options.map fun opt =>
      { newOption (opt.name ++ [blank]) with values := opt.values } := by
  induction options generalizing reg with
  | nil => simp
  | cons opt rest ih =>
      obtain ⟨new, apart⟩ := List.nodup_cons.mp apart
      have here : restore reg opt =
          reg ++ [{ newOption (opt.name ++ [blank]) with values := opt.values }] := by
        apply update_added
        intro stored member
        rw [convert_read_name]
        exact fresh stored member opt List.mem_cons_self
      rw [List.foldl_cons, here, ih _ apart, List.map_cons, List.append_assoc,
        List.singleton_append]
      intro stored member later inRest
      rcases List.mem_append.mp member with old | own
      · exact fresh stored old later (List.mem_cons_of_mem opt inRest)
      · obtain rfl := List.mem_singleton.mp own
        intro same
        -- two names that are read alike would have the same key
        have converted : readName opt = readName later :=
          (convert_read_name opt).symm.trans ((key_new _).symm.trans same)
        have keys : key opt = key later := List.append_cancel_right converted
        exact new (keys ▸ List.mem_map_of_mem inRest)

theorem written_read_back (wellFormed : WellFormed options)
    (apart : (options.map key).Nodup) :
    readConfig ((written options).map Subtype.val) [] = options.map fun opt =>
      { newOption (opt.name ++ [blank]) with values := opt.values } := by
  rw [read_written options [] wellFormed.writable, restored_list options [] apart (by simp),
    List.nil_append]

/-- An option `list` with two values. -/
def twoValues : Registry :=
  [{ newOption (text "list") with values := [text "a", text "b"] }]

theorem two_values_well_formed : WellFormed twoValues := by
  refine ⟨fun opt member => ?_, by decide +kernel⟩
  obtain rfl := List.mem_singleton.mp member
  exact ⟨by decide +kernel, by decide +kernel, by decide +kernel⟩

theorem two_values_lost : RoundTrips twoValues ↔ twoValues = [] :=
  round_trips_iff two_values_well_formed

/-- It is read back under a name that ends in a blank. -/
theorem name_read_with_blank : WellFormed twoValues ∧ ¬ RoundTrips twoValues ∧
    (readConfig ((written twoValues).map Subtype.val) []).map nameAndValues =
      [(text "list ", [text "a", text "b"])] := by
  refine ⟨two_values_well_formed, ?_, by decide +kernel⟩
  unfold RoundTrips
  decide +kernel

end Files
end PteSysbench.ConfigRoundTrip
