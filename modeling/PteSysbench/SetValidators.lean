import PteSysbench.OptionNames

/-!
Which validator an option ends with when a set is registered, and what later calls of
`set_option` make of it. `sb_register_arg_set` stores `set->validate` in every turn of its
loop.
-/

namespace PteSysbench.SetValidators

open OptionRegistry OptionNames

/-- The options of a Lua script, copied. -/
def sbLuaSetTestArgs (args : List Arg) : List Arg :=
  args.map fun arg =>
    { name := arg.name, value := arg.value, type := arg.type, validate := arg.validate }

theorem set_test_args_same (args : List Arg) : sbLuaSetTestArgs args = args := List.map_id args

def boolSpellings : List Text :=
  [text "on", text "true", text "1", text "off", text "false", text "0"]

/-- What `set_option` refuses behind the validator. An entry of SB_ARG_TYPE_NULL declares
no type. -/
def Mistyped (type : ArgType) (value : Option Text) : Prop :=
  (type = .bool ∧ ∃ v, value = some v ∧ v ∉ boolSpellings) ∨
    (type = .null ∧ ∃ v, value = some v ∧ v ≠ [])

def calls (fs : FileSystem) : Registry → List Call → Registry :=
  List.foldl (call fs)

def Removes (name : Text) : Call → Prop
  | .remove other => convertDashes other = convertDashes name
  | _ => False

/-- The option of the entry has the validator of the entry, and goes by it whatever calls
come in between. -/
structure OwnValidator (arg : Arg) (stored : Registry) : Prop where
  own : validatorOf stored (convertDashes arg.name) = arg.validate
  later : ∀ fs between, (∀ c ∈ between, ¬ Removes arg.name c) →
    ∀ name value, convertDashes name = convertDashes arg.name →
      ((setOption fs (calls fs stored between) name value arg.type).2 = false ↔
        (∃ validate, arg.validate = some validate ∧ validate name value = false) ∨
          Mistyped arg.type value)

/-! Calls of `set_option`. -/
section SetOption
variable {fs : FileSystem} {options : Registry} {name : Text} {value : Option Text}
  {type : ArgType}

theorem bool_values_none_iff (v : Text) :
    optionValues .bool (some v) = none ↔ v ∉ boolSpellings := by
  have spelled : v ∈ boolSpellings ↔ (v = text "on" ∨ v = text "true" ∨ v = text "1") ∨
      (v = text "off" ∨ v = text "false" ∨ v = text "0") := by
    simp only [boolSpellings, List.mem_cons, List.not_mem_nil, or_false, or_assoc]
  have set : optionValues .bool (some v) =
      if v = text "on" ∨ v = text "true" ∨ v = text "1" then some [text "on"]
      else if v = text "off" ∨ v = text "false" ∨ v = text "0" then some []
      else none := if_neg fun both => both.1 rfl
  rw [set, spelled, not_or]
  split_ifs with on off
  · exact iff_of_false id fun neither => neither.1 on
  · exact iff_of_false id fun neither => neither.2 off
  · exact iff_of_true rfl ⟨on, off⟩

theorem option_values_none_iff (type : ArgType) (value : Option Text) :
    optionValues type value = none ↔ Mistyped type value := by
  cases value with
  | none => cases type <;> simp [optionValues, Mistyped]
  | some v =>
      cases type
      case bool => simp [bool_values_none_iff, Mistyped]
      all_goals by_cases empty : v = [] <;> simp [optionValues, Mistyped, empty]

theorem set_option_refused
    (refused : accepts (validatorOf options (convertDashes name)) name value = false) :
    setOption fs options name value type =
      (updateOption (fun opt => { opt with values := [], type := type }) name
        (addOption options name), false) := by
  rw [setOption, validated_cleared, refused]
  rfl

/-- A call fails at its validator or at its type. -/
theorem set_option_fails_iff (fs : FileSystem) (options : Registry) (name : Text)
    (value : Option Text) (type : ArgType) :
    (setOption fs options name value type).2 = false ↔
      accepts (validatorOf options (convertDashes name)) name value = false ∨
        Mistyped type value := by
  cases accepted : accepts (validatorOf options (convertDashes name)) name value with
  | false => simp [set_option_refused accepted]
  | true =>
      rw [set_option_done fs type accepted, ← option_values_none_iff]
      simp

theorem accepts_false_iff (validate : Option Validator) (name : Text) (value : Option Text) :
    accepts validate name value = false ↔
      ∃ own, validate = some own ∧ own name value = false := by
  cases validate <;> simp [accepts]

/-- No call changes the validator of an entry. -/
theorem set_option_keeps (fs : FileSystem) (options : Registry) (name key : Text)
    (value : Option Text) (type : ArgType) :
    validatorOf (setOption fs options name value type).1 key = validatorOf options key := by
  cases accepted : accepts (validatorOf options (convertDashes name)) name value with
  | true => exact set_option_validator fs type key accepted
  | false =>
      rw [set_option_refused accepted, validatorOf, lookup_cleared]
      by_cases same : key = convertDashes name
      · subst same
        cases found : lookup options (convertDashes name) <;> simp [validatorOf, found, newOption]
      · simp [validatorOf, same]

theorem add_keeps (options : Registry) (name key : Text) :
    validatorOf (addOption options name) key = validatorOf options key := by
  rw [validatorOf, lookup_add]
  by_cases same : key = convertDashes name
  · subst same
    cases found : lookup options (convertDashes name) <;> simp [validatorOf, found, newOption]
  · simp [validatorOf, same]

theorem lookup_others (options : Registry) (name key : Text) (other : key ≠ convertDashes name) :
    lookup (others name options) key = lookup options key := by
  rw [lookup, others, List.find?_filter, lookup]
  congr 1
  funext opt
  by_cases mine : convertDashes opt.name = key
  · simp [OptionNames.key, mine, other]
  · simp [mine]

theorem remove_keeps (options : Registry) (name key : Text) (other : key ≠ convertDashes name) :
    validatorOf (removeOption options name).1 key = validatorOf options key := by
  rw [validatorOf, ← lookup_others _ name key other, remove_others, lookup_others _ name key other]
  rfl

theorem calls_keep (fs : FileSystem) (options : Registry) (name : Text) (between : List Call)
    (kept : ∀ c ∈ between, ¬ Removes name c) :
    validatorOf (calls fs options between) (convertDashes name) =
      validatorOf options (convertDashes name) := by
  induction between generalizing options with
  | nil => rfl
  | cons c rest ih =>
      have first := kept c List.mem_cons_self
      have step : validatorOf (call fs options c) (convertDashes name) =
          validatorOf options (convertDashes name) := by
        cases c with
        | add other => exact add_keeps options other _
        | set other value type => exact set_option_keeps fs options other _ value type
        | remove other => exact remove_keeps options other _ (Ne.symm first)
      rw [← step]
      exact ih _ fun later member => kept later (List.mem_cons_of_mem _ member)
end SetOption

/-! The loop over a set. -/
section Register
variable {fs : FileSystem} {validate : Option Validator}

theorem set_option_present {options stored : Registry} {arg : Arg}
    (done : setOption fs options arg.name arg.value arg.type = (stored, true)) :
    ∃ opt, lookup stored (convertDashes arg.name) = some opt := by
  have success : (setOption fs options arg.name arg.value arg.type).2 = true := by rw [done]
  have typed := set_option_type fs arg.type (convertDashes arg.name)
    (set_option_success success).1
  rw [done, if_pos rfl, Option.some_or, typeOf] at typed
  obtain ⟨opt, found, _⟩ := Option.map_eq_some_iff.mp typed
  exact ⟨opt, found⟩

/-- A turn of the loop gives the validator to the entry's option and to no other. -/
theorem turn_validators {options stored : Registry} {arg : Arg}
    (done : setOption fs options arg.name arg.value arg.type = (stored, true)) (key : Text) :
    validatorOf (updateOption (fun opt => { opt with validate := validate }) arg.name stored) key =
      if key = convertDashes arg.name then validate else validatorOf options key := by
  rw [validatorOf, lookup_update _ _ _ (fun opt => { opt with validate := validate }) fun _ => rfl]
  by_cases same : key = convertDashes arg.name
  · subst same
    obtain ⟨opt, found⟩ := set_option_present done
    simp [found]
  · have kept := set_option_keeps fs options arg.name key arg.value arg.type
    rw [done] at kept
    rw [if_neg same, if_neg same]
    exact kept

theorem register_validators (set : List Arg) (options stored : Registry)
    (registered : registerArgs fs validate options set = (stored, true)) (key : Text) :
    validatorOf stored key =
      if key ∈ set.map fun arg => convertDashes arg.name then validate
      else validatorOf options key := by
  induction set generalizing options with
  | nil =>
      cases registered
      simp
  | cons arg rest ih =>
      cases done : setOption fs options arg.name arg.value arg.type with
      | mk between returned =>
          cases returned with
          | false => simp [registerArgs, done] at registered
          | true =>
              simp only [registerArgs, done] at registered
              rw [ih _ registered, turn_validators done]
              -- an argument of the same name further on sets the same validator
              by_cases later : key ∈ rest.map fun arg => convertDashes arg.name
              · rw [if_pos later, List.map_cons, if_pos (List.mem_cons_of_mem _ later)]
              · rw [if_neg later, List.map_cons]
                simp only [List.mem_cons, later, or_false]
end Register

/-- After a successful registration the entries have their own validators just when these
are all the first one's. -/
theorem own_validators_iff {fs : FileSystem} {options stored : Registry} (set : List Arg)
    (registered : sbRegisterArgSet fs options set = (stored, true)) :
    (∀ arg ∈ set, OwnValidator arg stored) ↔
      ∀ arg ∈ set, arg.validate = set.head?.bind Arg.validate := by
  have first (arg : Arg) (member : arg ∈ set) :
      validatorOf stored (convertDashes arg.name) = set.head?.bind Arg.validate := by
    rw [register_validators set options stored registered,
      if_pos (List.mem_map_of_mem (f := fun arg => convertDashes arg.name) member)]
  constructor
  · intro right arg member
    exact (right arg member).own.symm.trans (first arg member)
  · intro same arg member
    have own := (first arg member).trans (same arg member).symm
    refine ⟨own, fun fs between kept name value this => ?_⟩
    rw [set_option_fails_iff, this, calls_keep fs stored arg.name between kept, own,
      accepts_false_iff]

def notEmpty : Validator := fun _ value => value ≠ some []

/-- Two options of a script; the first has a validator of its own only if told so. -/
def scriptOptions (first : Option Validator) : List Arg :=
  sbLuaSetTestArgs
    [⟨text "tables", some (text "1"), .int, first⟩,
      ⟨text "engine", some (text "innodb"), .string, some notEmpty⟩]

theorem script_validators_own :
    ∃ stored, sbRegisterArgSet noFiles [] (scriptOptions (some notEmpty)) = (stored, true) ∧
      ((∀ arg ∈ scriptOptions (some notEmpty), OwnValidator arg stored) ↔
        ∀ arg ∈ scriptOptions (some notEmpty),
          arg.validate = (scriptOptions (some notEmpty)).head?.bind Arg.validate) := by
  obtain ⟨stored, registered⟩ :
      ∃ stored, sbRegisterArgSet noFiles [] (scriptOptions (some notEmpty)) = (stored, true) :=
    ⟨_, rfl⟩
  exact ⟨stored, registered, own_validators_iff _ registered⟩

/-- Without one on the first option the validator of the second is never asked. -/
theorem second_validator_lost :
    ∃ stored, sbRegisterArgSet noFiles [] (scriptOptions none) = (stored, true) ∧
      notEmpty (text "engine") (some []) = false ∧
      (setOption noFiles stored (text "engine") (some []) .string).2 = true ∧
      ¬ ∀ arg ∈ scriptOptions none, OwnValidator arg stored := by
  refine ⟨_, rfl, rfl, rfl, fun right => ?_⟩
  have own := (right _ (List.mem_cons_of_mem _ List.mem_cons_self)).own
  cases own
end PteSysbench.SetValidators
