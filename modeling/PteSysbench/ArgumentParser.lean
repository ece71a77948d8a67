import PteSysbench.ActionSystem
import PteSysbench.OptionRegistry
import Mathlib.Logic.Function.Basic

/-!
The two passes of `sysbench.c` over the command line: `parse_general_arguments`
takes the options registered so far out of `argv`, `parse_test_arguments` registers
those of the test and parses the rest.
-/

namespace PteSysbench.ArgumentParser

open ActionSystem LastWriter OptionRegistry

inductive ParseError where
  | registration
  | unrecognized (arg : Text)
  | invalidOption (arg : Text)
  deriving DecidableEq

/-- The text after the dashes of an option argument. -/
def optionText : Text → Option Text
  | a :: b :: rest => if a = dash ∧ b = dash then some rest else none
  | _ => none

def optionParts (name : Text) : Text × Option Text :=
  match splitDelimiter name with
  | none => (name, none)
  | some (before, after) => (before, some after)

/-- The list after the call, and whether it returned 0. -/
def parseOption (fs : FileSystem) (options : Registry) (name : Text) (ignoreUnknown : Bool) :
    Registry × Bool :=
  let (name, value) := optionParts name
  match findOption options name with
  | some opt => setOption fs options name value opt.type
  | none => if ignoreUnknown then setOption fs options name value .string else (options, false)

/-- `argv` with the entries that are set to NULL, and `sb_globals`. -/
structure GeneralArguments where
  options : Registry
  argv : List (Option Text)
  testname : Option Text
  cmdname : Option Text

def generalLoop (fs : FileSystem) (options : Registry) (testname cmdname : Option Text) :
    List Text → Except ParseError GeneralArguments
  | [] => .ok { options, argv := [], testname, cmdname }
  | arg :: rest => do
      match optionText arg with
      | some name =>
          -- what the option did to the list stays, also when it is left in argv
          let (parsed, taken) := parseOption fs options name false
          let result ← generalLoop fs parsed testname cmdname rest
          .ok { result with argv := (if taken then none else some arg) :: result.argv }
      | none =>
          match testname, cmdname with
          | none, _ =>
              let result ← generalLoop fs options (some arg) cmdname rest
              .ok { result with argv := some arg :: result.argv }
          | some _, none =>
              let result ← generalLoop fs options testname (some arg) rest
              .ok { result with argv := some arg :: result.argv }
          | some _, some _ => .error (.unrecognized arg)

def parseGeneralArguments (fs : FileSystem) (generalArgs : List Arg) (options : Registry)
    (argv : List Text) : Except ParseError GeneralArguments :=
  match sbRegisterArgSet fs options generalArgs with
  | (_, false) => .error .registration
  | (registered, true) => generalLoop fs registered none none argv

def testLoop (fs : FileSystem) (options : Registry) :
    List (Option Text) → Except ParseError (Registry × List (Option Text))
  | [] => .ok (options, [])
  | none :: rest => do
      let (parsed, argv) ← testLoop fs options rest
      .ok (parsed, none :: argv)
  | some arg :: rest => do
      match optionText arg with
      | none =>
          let (parsed, argv) ← testLoop fs options rest
          .ok (parsed, some arg :: argv)
      | some name =>
          match parseOption fs options name false with
          | (_, false) => .error (.invalidOption arg)
          | (set, true) =>
              let (parsed, argv) ← testLoop fs set rest
              .ok (parsed, none :: argv)

def parseTestArguments (fs : FileSystem) (testArgs : List Arg) (options : Registry)
    (argv : List (Option Text)) : Except ParseError (Registry × List (Option Text)) :=
  match sbRegisterArgSet fs options testArgs with
  | (_, false) => .error .registration
  | (registered, true) => testLoop fs registered argv

/-! Options registered before the first pass. -/
section Tables

def sbOpt (name : String) (value : Option String) (type : ArgType) : Arg :=
  { name := text name, value := value.map text, type, validate := none }

/-- USE_MYSQL, USE_PGSQL and HAVE_MYSQL_OPT_SSL_MODE. -/
structure Build where
  useMysql : Bool
  usePgsql : Bool
  mysqlOptSslMode : Bool
  deriving DecidableEq, Repr

def textHandlerArgs : List Arg := [sbOpt "verbosity" (some "3") .int]

def operHandlerArgs : List Arg :=
  [sbOpt "percentile" (some "95") .int, sbOpt "histogram" (some "off") .bool]

def mysqlDrvArgs (build : Build) : List Arg :=
  [sbOpt "mysql-host" (some "localhost") .list,
    sbOpt "mysql-port" (some "3306") .list,
    sbOpt "mysql-socket" none .list,
    sbOpt "mysql-user" (some "sbtest") .string,
    sbOpt "mysql-password" (some "") .string,
    sbOpt "mysql-db" (some "sbtest") .string,
    if build.mysqlOptSslMode then sbOpt "mysql-ssl" (some "disabled") .string
    else sbOpt "mysql-ssl" (some "off") .bool,
    sbOpt "mysql-ssl-key" none .string,
    sbOpt "mysql-ssl-ca" none .string,
    sbOpt "mysql-ssl-cert" none .string,
    sbOpt "mysql-ssl-cipher" (some "") .string,
    sbOpt "mysql-compression" (some "off") .bool,
    sbOpt "mysql-compression-algorithms" (some "zlib") .string,
    sbOpt "mysql-debug" (some "off") .bool,
    sbOpt "mysql-ignore-errors" (some "1213,1020,1205") .list,
    sbOpt "mysql-dry-run" (some "off") .bool]

def pgsqlDrvArgs : List Arg :=
  [sbOpt "pgsql-host" (some "localhost") .string,
    sbOpt "pgsql-port" (some "5432") .int,
    sbOpt "pgsql-user" (some "sbtest") .string,
    sbOpt "pgsql-password" (some "") .string,
    sbOpt "pgsql-db" (some "sbtest") .string,
    sbOpt "pgsql-sslmode" (some "prefer") .string]

def dbArgs (build : Build) : List Arg :=
  [sbOpt "db-driver" (if build.useMysql then some "mysql" else none) .string,
    sbOpt "db-ps-mode" (some "auto") .string,
    sbOpt "db-debug" (some "off") .bool]

def randArgs : List Arg :=
  [sbOpt "rand-type" (some "uniform") .string,
    sbOpt "rand-seed" (some "0") .int,
    sbOpt "rand-pareto-h" (some "0.2") .double,
    sbOpt "rand-zipfian-exp" (some "0.8") .double]

def generalArgs : List Arg :=
  [sbOpt "threads" (some "1") .int,
    sbOpt "events" (some "0") .int,
    sbOpt "time" (some "10") .int,
    sbOpt "warmup-time" (some "0") .int,
    sbOpt "forced-shutdown" (some "off") .string,
    sbOpt "thread-stack-size" (some "64K") .size,
    sbOpt "thread-init-timeout" (some "30") .int,
    sbOpt "rate" (some "0") .int,
    sbOpt "report-interval" (some "0") .int,
    sbOpt "report-checkpoints" (some "") .list,
    sbOpt "debug" (some "off") .bool,
    sbOpt "validate" (some "off") .bool,
    sbOpt "help" (some "off") .bool,
    sbOpt "version" (some "off") .bool,
    sbOpt "config-file" none .file,
    sbOpt "luajit-cmd" none .string]

/-- `log_register` and `register_tests`. -/
def earlierSets (build : Build) : List (List Arg) :=
  [textHandlerArgs, operHandlerArgs] ++
    (if build.useMysql then [mysqlDrvArgs build] else []) ++
    (if build.usePgsql then [pgsqlDrvArgs] else []) ++ [dbArgs build, randArgs]

/-- The callers of `sb_register_arg_set` for these sets ignore its result. -/
def registerSets (fs : FileSystem) (options : Registry) (sets : List (List Arg)) : Registry :=
  sets.foldl (fun options set => (sbRegisterArgSet fs options set).1) options

/-- `main` up to the options of the test, but for `init` between the passes: under --debug it
sets verbosity to 5. -/
def parseArguments (fs : FileSystem) (build : Build) (testArgs : List Arg) (argv : List Text) :
    Except ParseError Registry := do
  let general ← parseGeneralArguments fs generalArgs (registerSets fs [] (earlierSets build)) argv
  let (options, _) ← parseTestArguments fs testArgs general.options general.argv
  .ok options

end Tables

/-! Registering a set is a sequence of assignments. -/
section Registration
variable {fs : FileSystem} {options : Registry} {key : Text} {validate : Option Validator}

def argCommand (arg : Arg) : Command :=
  { name := convertDashes arg.name, value := arg.value, type := arg.type }

/-- The types after the registration of these entries. -/
def declaredTypes (args : List Arg) (types : Text → ArgType) : Text → ArgType :=
  args.foldl (fun types arg => Function.update types (convertDashes arg.name) arg.type) types

/-- Every option has its declared type, one that is not declared none. -/
def TypedBy (types : Text → ArgType) (options : Registry) : Prop :=
  ∀ key, typeOf options key = some (types key) ∨ typeOf options key = none ∧ types key = .null

theorem set_option_typed {types : Text → ArgType} {name : Text} {value : Option Text}
    (fs : FileSystem) (type : ArgType) (typed : TypedBy types options)
    (accepted : accepts (validatorOf options (convertDashes name)) name value = true) :
    TypedBy (Function.update types (convertDashes name) type)
      (setOption fs options name value type).1 := by
  intro key
  rw [set_option_type fs type key accepted]
  by_cases same : key = convertDashes name
  · simp [same]
  · rcases typed key with known | ⟨unknown, untyped⟩
    · simp [same, known]
    · cases ((Command.mk (convertDashes name) value type).assignment fs).bulk key <;>
        simp [same, unknown, untyped]

theorem lookup_set_validator (name : Text) : lookup (updateOption
      (fun opt => { opt with validate := validate }) name options) key =
    if key = convertDashes name then
      (lookup options key).map fun opt => { opt with validate := validate }
    else lookup options key :=
  lookup_update options name key _ fun _ => rfl

theorem set_validator_values (name : Text) : valuesOf (updateOption
      (fun opt => { opt with validate := validate }) name options) key = valuesOf options key := by
  rw [valuesOf, lookup_set_validator]
  by_cases same : key = convertDashes name
  · cases found : lookup options key <;> simp [valuesOf, ← same, found]
  · simp [valuesOf, same]

theorem set_validator_type (name : Text) : typeOf (updateOption
      (fun opt => { opt with validate := validate }) name options) key = typeOf options key := by
  rw [typeOf, lookup_set_validator]
  by_cases same : key = convertDashes name
  · cases found : lookup options key <;> simp [typeOf, ← same, found]
  · simp [typeOf, same]

theorem set_validator_none (name : Text) (unset : validatorOf options key = none) :
    validatorOf (updateOption (fun opt => { opt with validate := none }) name options) key =
      none := by
  rw [validatorOf, lookup_set_validator]
  by_cases same : key = convertDashes name
  · cases lookup options key <;> simp [← same]
  · simp only [same, ↓reduceIte]
    exact unset

theorem register_step (validate : Option Validator) (arg : Arg) (stored : Registry)
    (types : Text → ArgType)
    (typed : TypedBy types options)
    (call : setOption fs options arg.name arg.value arg.type = (stored, true)) :
    (optionValues arg.type arg.value).isSome = true ∧
    TypedBy (Function.update types (convertDashes arg.name) arg.type)
      (updateOption (fun opt => { opt with validate := validate }) arg.name stored) ∧
    ∀ key, valuesOf
        (updateOption (fun opt => { opt with validate := validate }) arg.name stored) key =
      (((argCommand arg).assignment fs).wrote key).or (valuesOf options key) := by
  have done : (setOption fs options arg.name arg.value arg.type).2 = true := by rw [call]
  have set : (setOption fs options arg.name arg.value arg.type).1 = stored := by rw [call]
  obtain ⟨accepted, taken⟩ := set_option_success done
  refine ⟨taken, ?_, ?_⟩
  · intro key
    rw [set_validator_type, ← set]
    exact set_option_typed fs arg.type typed accepted key
  · intro key
    rw [set_validator_values, ← set]
    exact set_option_values fs arg.type key accepted

/-- A set that is registered whole is a run of assignments of its defaults. -/
theorem register_args_success (set : List Arg) (types : Text → ArgType)
    (typed : TypedBy types options) (done : (registerArgs fs validate options set).2 = true) :
    (∀ arg ∈ set, (optionValues arg.type arg.value).isSome = true) ∧
    TypedBy (declaredTypes set types) (registerArgs fs validate options set).1 ∧
    ∀ key, valuesOf (registerArgs fs validate options set).1 key =
      (written key (set.map fun arg => (argCommand arg).assignment fs)).or
        (valuesOf options key) := by
  induction set generalizing options types with
  | nil => exact ⟨by simp, typed, fun _ => rfl⟩
  | cons arg rest ih =>
      cases call : setOption fs options arg.name arg.value arg.type with
      | mk stored returned =>
          cases returned with
          | false => simp [registerArgs, call] at done
          | true =>
              obtain ⟨taken, retyped, own⟩ := register_step validate arg stored types typed call
              simp only [registerArgs, call] at done ⊢
              obtain ⟨others, later, values⟩ := ih _ retyped done
              refine ⟨?_, later, ?_⟩
              · intro other member
                rcases List.mem_cons.mp member with rfl | inRest
                · exact taken
                · exact others other inRest
              · intro key
                rw [values, own, List.map_cons, written, Option.or_assoc]

theorem register_args_unvalidated (fs : FileSystem) (set : List Arg)
    (unvalidated : ∀ key, validatorOf options key = none)
    (taken : ∀ arg ∈ set, (optionValues arg.type arg.value).isSome = true) :
    (registerArgs fs none options set).2 = true ∧
      ∀ key, validatorOf (registerArgs fs none options set).1 key = none := by
  induction set generalizing options with
  | nil => exact ⟨rfl, unvalidated⟩
  | cons arg rest ih =>
      have accepted : accepts (validatorOf options (convertDashes arg.name)) arg.name arg.value =
          true := by
        rw [unvalidated]
        rfl
      cases call : setOption fs options arg.name arg.value arg.type with
      | mk stored returned =>
          have done := set_option_done fs arg.type accepted
          have kept := fun key => set_option_validator fs arg.type key accepted
          rw [call] at done kept
          obtain rfl : returned = true := done.trans (taken arg List.mem_cons_self)
          simp only [registerArgs, call]
          exact ih (fun key => set_validator_none arg.name ((kept key).trans (unvalidated key)))
            fun other member => taken other (List.mem_cons_of_mem arg member)

theorem register_sets (fs : FileSystem) (options : Registry) (sets : List (List Arg))
    (types : Text → ArgType)
    (typed : TypedBy types options) (unvalidated : ∀ key, validatorOf options key = none)
    (plain : ∀ set ∈ sets, ∀ arg ∈ set, arg.validate = none)
    (taken : ∀ set ∈ sets, ∀ arg ∈ set, (optionValues arg.type arg.value).isSome = true) :
    (∀ key, validatorOf (registerSets fs options sets) key = none) ∧
    TypedBy (declaredTypes sets.flatten types) (registerSets fs options sets) ∧
    ∀ key, valuesOf (registerSets fs options sets) key =
      (written key (sets.flatten.map fun arg => (argCommand arg).assignment fs)).or
        (valuesOf options key) := by
  induction sets generalizing options types with
  | nil => exact ⟨unvalidated, typed, fun _ => rfl⟩
  | cons set rest ih =>
      have noValidator : set.head?.bind Arg.validate = none := by
        cases set with
        | nil => rfl
        | cons arg others => exact plain _ List.mem_cons_self arg List.mem_cons_self
      have registered : sbRegisterArgSet fs options set = registerArgs fs none options set := by
        rw [sbRegisterArgSet, noValidator]
      obtain ⟨done, cleared⟩ := register_args_unvalidated fs set unvalidated
        (taken set List.mem_cons_self)
      obtain ⟨_, retyped, own⟩ := register_args_success set types typed done
      obtain ⟨clean, later, values⟩ := ih _ _ retyped cleared
        (fun other member => plain other (List.mem_cons_of_mem set member))
        (fun other member => taken other (List.mem_cons_of_mem set member))
      simp only [registerSets, List.foldl_cons, registered] at clean later values ⊢
      refine ⟨clean, ?_, ?_⟩
      · simpa only [List.flatten_cons, declaredTypes, List.foldl_append] using later
      · intro key
        rw [values, own, List.flatten_cons, List.map_append, written_append, Option.or_assoc]

end Registration

/-! The options the program itself registers. -/
section Base

def baseArgs (build : Build) : List Arg := (earlierSets build).flatten ++ generalArgs

def baseTypes (build : Build) : Text → ArgType := declaredTypes (baseArgs build) fun _ => .null

def declares (build : Build) (key : Text) : Bool :=
  (baseArgs build).any fun arg => decide (convertDashes arg.name = key)

def configFileName : Text := text "config_file"

/-- No validators, every default is taken, and only `config-file` names a file, by
default none. -/
theorem base_args_plain (build : Build) : ∀ arg ∈ baseArgs build,
    arg.validate.isNone = true ∧ (optionValues arg.type arg.value).isSome = true ∧
      arg.type ≠ .null ∧
      (arg.type = .file → convertDashes arg.name = configFileName ∧ arg.value = none) := by
  rcases build with ⟨_ | _, _ | _, _ | _⟩ <;> decide +kernel

theorem config_file_declared (build : Build) :
    declares build configFileName = true ∧ baseTypes build configFileName = .file := by
  rcases build with ⟨_ | _, _ | _, _ | _⟩ <;> decide +kernel

theorem declared_types_cases (args : List Arg) (types : Text → ArgType) (key : Text) :
    (∃ arg ∈ args, convertDashes arg.name = key ∧ declaredTypes args types key = arg.type) ∨
    (∀ arg ∈ args, convertDashes arg.name ≠ key) ∧ declaredTypes args types key = types key := by
  induction args generalizing types with
  | nil => exact Or.inr ⟨by simp, rfl⟩
  | cons arg rest ih =>
      rcases ih (Function.update types (convertDashes arg.name) arg.type) with
        ⟨other, member, named, typed⟩ | ⟨others, typed⟩
      · exact Or.inl ⟨other, List.mem_cons_of_mem arg member, named, typed⟩
      · by_cases same : convertDashes arg.name = key
        · refine Or.inl ⟨arg, List.mem_cons_self, same, typed.trans ?_⟩
          simp [same]
        · refine Or.inr ⟨?_, typed.trans (by simp [Ne.symm same])⟩
          intro other member
          rcases List.mem_cons.mp member with rfl | inRest
          · exact same
          · exact others other inRest

theorem base_type_file (build : Build) (key : Text) :
    baseTypes build key = .file ↔ key = configFileName := by
  constructor
  · intro file
    rcases declared_types_cases (baseArgs build) (fun _ => .null) key with
      ⟨arg, member, named, typed⟩ | ⟨_, untyped⟩
    · have plain := (base_args_plain build arg member).2.2.2 (typed.symm.trans file)
      exact named.symm.trans plain.1
    · exact absurd (untyped.symm.trans file) (by simp)
  · rintro rfl
    exact (config_file_declared build).2

theorem base_registered (fs : FileSystem) (build : Build) :
    let earlier := registerSets fs [] (earlierSets build)
    let general := sbRegisterArgSet fs earlier generalArgs
    general.2 = true ∧ (∀ key, validatorOf general.1 key = none) ∧
      TypedBy (baseTypes build) general.1 ∧
      ∀ key, valuesOf general.1 key =
        written key ((baseArgs build).map fun arg => (argCommand arg).assignment fs) := by
  intro earlier general
  have plain : ∀ arg ∈ baseArgs build, arg.validate = none := fun arg member =>
    Option.isNone_iff_eq_none.mp (base_args_plain build arg member).1
  have taken : ∀ arg ∈ baseArgs build, (optionValues arg.type arg.value).isSome = true :=
    fun arg member => (base_args_plain build arg member).2.1
  have inEarlier : ∀ set ∈ earlierSets build, ∀ arg ∈ set, arg ∈ baseArgs build :=
    fun set listed arg member =>
      List.mem_append_left _ (List.mem_flatten.mpr ⟨set, listed, member⟩)
  have inGeneral : ∀ arg ∈ generalArgs, arg ∈ baseArgs build :=
    fun arg member => List.mem_append_right _ member
  obtain ⟨clean, typed, values⟩ := register_sets fs [] (earlierSets build)
    (fun _ => .null) (fun _ => Or.inr ⟨rfl, rfl⟩) (fun _ => rfl)
    (fun set listed arg member => plain arg (inEarlier set listed arg member))
    (fun set listed arg member => taken arg (inEarlier set listed arg member))
  have registered : general = registerArgs fs none earlier generalArgs := rfl
  obtain ⟨done, cleared⟩ := register_args_unvalidated fs generalArgs clean
    fun arg member => taken arg (inGeneral arg member)
  obtain ⟨_, retyped, own⟩ := register_args_success generalArgs _ typed done
  rw [registered]
  refine ⟨done, cleared, ?_, ?_⟩
  · simpa only [baseTypes, baseArgs, declaredTypes, List.foldl_append] using retyped
  · intro key
    rw [own, values, baseArgs, List.map_append, written_append]
    simp [valuesOf, lookup]

theorem base_written (fs : FileSystem) (build : Build) (key : Text) :
    written key ((baseArgs build).map fun arg => (argCommand arg).assignment fs) =
      assigned key ((baseArgs build).map fun arg => (argCommand arg).assignment fs) := by
  have silent : ∀ a ∈ (baseArgs build).map fun arg => (argCommand arg).assignment fs,
      a.bulk key = none := by
    intro a member
    obtain ⟨arg, listed, rfl⟩ := List.mem_map.mp member
    -- no default names a file
    have unnamed : namedFile arg.type arg.value = none := by
      by_cases file : arg.type = .file
      · have plain := (base_args_plain build arg listed).2.2.2 file
        rw [file, plain.2]
        rfl
      · exact named_file_none file
    simp [Command.assignment, Command.file, argCommand, unnamed]
  rw [written_eq, late_eq_none silent, Option.none_or]

end Base

/-! The options of a command line. -/
section Occurrences

/-- An option argument under its converted name. -/
structure Occurrence where
  name : Text
  value : Option Text
  deriving DecidableEq

def occurrence (arg : Text) : Option Occurrence :=
  (optionText arg).map fun name =>
    { name := convertDashes (optionParts name).1, value := (optionParts name).2 }

def occurrences (argv : List Text) : List Occurrence := argv.filterMap occurrence

def Occurrence.command (types : Text → ArgType) (occ : Occurrence) : Command :=
  { name := occ.name, value := occ.value, type := types occ.name }

/-- What a `--config-file` argument sets by the file it names. -/
def configBulk (fs : FileSystem) (occ : Occurrence) : Option (Text → Option (List Text)) :=
  if occ.name = configFileName then
    ((namedFile .file occ.value).bind fs).map fileValues
  else none

def configBulks (fs : FileSystem) (occs : List Occurrence) : List (Text → Option (List Text)) :=
  occs.filterMap (configBulk fs)

/-- The option is registered when the first pass gets past these arguments. -/
def known (fs : FileSystem) (build : Build) (before : List Occurrence) (key : Text) : Bool :=
  declares build key || (lastBulk key (configBulks fs before)).isSome

/-- The first pass sets the option to the value of this argument and removes it. -/
def takenFirst (fs : FileSystem) (build : Build) (before : List Occurrence) (occ : Occurrence) :
    Bool :=
  known fs build before occ.name && (optionValues (baseTypes build occ.name) occ.value).isSome

/-- The calls of `set_option` in the first pass. -/
def firstPass (fs : FileSystem) (build : Build) (before : List Occurrence) :
    List Occurrence → List Command
  | [] => []
  | occ :: rest =>
      if known fs build before occ.name then
        occ.command (baseTypes build) :: firstPass fs build (before ++ [occ]) rest
      else firstPass fs build (before ++ [occ]) rest

/-- The arguments that are left for the second pass. -/
def leftOver (fs : FileSystem) (build : Build) (before : List Occurrence) :
    List Occurrence → List Occurrence
  | [] => []
  | occ :: rest =>
      if takenFirst fs build before occ then leftOver fs build (before ++ [occ]) rest
      else occ :: leftOver fs build (before ++ [occ]) rest

end Occurrences

/-! `parse_general_arguments`. -/
section FirstPass
variable {fs : FileSystem} {build : Build} {options : Registry} {before : List Occurrence}

structure GeneralState (fs : FileSystem) (build : Build) (before : List Occurrence)
    (options : Registry) : Prop where
  unvalidated : ∀ key, validatorOf options key = none
  typed : TypedBy (baseTypes build) options
  known : ∀ key, (typeOf options key).isSome = known fs build before key

/-- Only `config-file` reads a file in the first pass. -/
theorem first_pass_bulk (fs : FileSystem) (build : Build) (occ : Occurrence) (key : Text) :
    ((occ.command (baseTypes build)).assignment fs).bulk key =
      (configBulk fs occ).bind fun bulk => bulk key := by
  by_cases config : occ.name = configFileName
  · have file : baseTypes build configFileName = .file := (base_type_file build _).mpr rfl
    simp only [Command.assignment, Command.file, Occurrence.command, configBulk, config, file,
      ↓reduceIte, Option.bind_map]
    rfl
  · have other : baseTypes build occ.name ≠ .file := fun file =>
      config ((base_type_file build _).mp file)
    simp [Command.assignment, Command.file, Occurrence.command, configBulk, config,
      named_file_none other]

theorem unknown_reads_nothing (before : List Occurrence) (occ : Occurrence)
    (unknown : known fs build before occ.name = false) : configBulk fs occ = none := by
  have other : occ.name ≠ configFileName := by
    intro config
    simp [known, config, (config_file_declared build).1] at unknown
  simp [configBulk, other]

theorem known_append (fs : FileSystem) (build : Build) (before : List Occurrence)
    (occ : Occurrence) (key : Text) : known fs build (before ++ [occ]) key =
      (known fs build before key || ((configBulk fs occ).bind fun bulk => bulk key).isSome) := by
  have single : lastBulk key (configBulks fs [occ]) =
      (configBulk fs occ).bind fun bulk => bulk key := by
    cases read : configBulk fs occ <;> simp [configBulks, read, lastBulk]
  simp only [known, configBulks, List.filterMap_append, last_bulk_append]
  simp only [configBulks] at single
  rw [single, Option.isSome_or, Bool.or_assoc, Bool.or_comm (Option.isSome _)]

theorem general_option (state : GeneralState fs build before options) (name : Text)
    (occ : Occurrence) (named : convertDashes (optionParts name).1 = occ.name)
    (valued : (optionParts name).2 = occ.value) :
    GeneralState fs build (before ++ [occ]) (parseOption fs options name false).1 ∧
    (parseOption fs options name false).2 = takenFirst fs build before occ ∧
    ∀ key, valuesOf (parseOption fs options name false).1 key =
      (if known fs build before occ.name then
        ((occ.command (baseTypes build)).assignment fs).wrote key else none).or
        (valuesOf options key) := by
  have found := find_option_eq options (optionParts name).1
  have registered := state.known occ.name
  rw [named] at found
  cases entry : lookup options occ.name with
  | none =>
      have unknown : known fs build before occ.name = false := by
        rw [← registered]
        simp [typeOf, entry]
      -- nobody knows the option yet: the argument is left for the second pass
      have untouched : parseOption fs options name false = (options, false) := by
        simp [parseOption, found, entry]
      have noFile := unknown_reads_nothing before occ unknown
      rw [untouched]
      refine ⟨⟨state.unvalidated, state.typed, ?_⟩, by simp [takenFirst, unknown],
        by simp [unknown]⟩
      intro key
      simp [known_append, noFile, state.known key]
  | some opt =>
      have isKnown : known fs build before occ.name = true := by
        rw [← registered]
        simp [typeOf, entry]
      have typed : opt.type = baseTypes build occ.name := by
        rcases state.typed occ.name with same | ⟨none, _⟩
        · simpa [typeOf, entry] using same
        · simp [typeOf, entry] at none
      have call : parseOption fs options name false =
          setOption fs options (optionParts name).1 occ.value (baseTypes build occ.name) := by
        simp only [parseOption, found, entry, typed, valued]
      have accepted : accepts (validatorOf options (convertDashes (optionParts name).1))
          (optionParts name).1 occ.value = true := by
        rw [state.unvalidated]
        rfl
      rw [call]
      -- the state of the list, then whether the argument was taken, then the values
      refine ⟨⟨?_, ?_, ?_⟩, ?_, ?_⟩
      · intro key
        rw [set_option_validator fs _ key accepted, state.unvalidated]
      · have kept := set_option_typed fs (baseTypes build occ.name) state.typed accepted
        rwa [named, Function.update_eq_self] at kept
      · intro key
        have bulk := first_pass_bulk fs build occ key
        rw [set_option_type fs _ key accepted, named, known_append]
        simp only [Occurrence.command] at bulk
        rw [bulk, Option.isSome_or, Option.isSome_map]
        by_cases same : key = occ.name
        · simp [same, isKnown]
        · simp [same, state.known key]
      · rw [set_option_done fs _ accepted, takenFirst, isKnown, Bool.true_and]
      · intro key
        rw [set_option_values fs _ key accepted, named, if_pos isKnown]
        rfl

/-- The option arguments that are still in `argv`. -/
def remaining (argv : List (Option Text)) : List Occurrence :=
  argv.filterMap fun entry => entry.bind occurrence

theorem option_occurrence (arg name : Text) (dashes : optionText arg = some name) :
    ∃ occ, occurrence arg = some occ ∧ convertDashes (optionParts name).1 = occ.name ∧
      (optionParts name).2 = occ.value := by
  simp [occurrence, dashes]

/-- An argument that names the test or the command is kept. -/
theorem remaining_plain (arg : Text) (argv : List (Option Text))
    (plain : optionText arg = none) : remaining (some arg :: argv) = remaining argv := by
  simp [remaining, occurrence, plain]

theorem general_loop_success (args : List Text) (testname cmdname : Option Text)
    (state : GeneralState fs build before options) (result : GeneralArguments)
    (done : generalLoop fs options testname cmdname args = .ok result) :
    remaining result.argv = leftOver fs build before (occurrences args) ∧
    TypedBy (baseTypes build) result.options ∧
    ∀ key, valuesOf result.options key =
      (written key ((firstPass fs build before (occurrences args)).map
        (Command.assignment fs))).or (valuesOf options key) := by
  induction args generalizing options before testname cmdname result with
  | nil =>
      obtain rfl := Except.ok.inj done
      exact ⟨rfl, state.typed, fun _ => rfl⟩
  | cons arg rest ih =>
      cases dashes : optionText arg with
      | none =>
          have skipped : occurrences (arg :: rest) = occurrences rest := by
            simp [occurrences, occurrence, dashes]
          rw [skipped]
          simp only [generalLoop, dashes] at done
          cases testname with
          | none =>
              obtain ⟨later, looped, kept⟩ := bind_ok _ _ _ done
              obtain rfl := Except.ok.inj kept
              have after := ih _ _ state later looped
              exact ⟨(remaining_plain arg _ dashes).trans after.1, after.2⟩
          | some testname =>
              cases cmdname with
              | none =>
                  obtain ⟨later, looped, kept⟩ := bind_ok _ _ _ done
                  obtain rfl := Except.ok.inj kept
                  have after := ih _ _ state later looped
                  exact ⟨(remaining_plain arg _ dashes).trans after.1, after.2⟩
              | some cmdname => cases done
      | some name =>
          obtain ⟨occ, here, named, valued⟩ := option_occurrence arg name dashes
          have listed : occurrences (arg :: rest) = occ :: occurrences rest := by
            simp [occurrences, here]
          obtain ⟨next, taken, own⟩ := general_option state name occ named valued
          simp only [generalLoop, dashes] at done
          obtain ⟨later, looped, kept⟩ := bind_ok _ _ _ done
          obtain rfl := Except.ok.inj kept
          obtain ⟨left, typed, values⟩ := ih _ _ next later looped
          rw [listed]
          refine ⟨?_, typed, ?_⟩
          · simp only [taken, leftOver, ← left]
            cases takenFirst fs build before occ <;> simp [remaining, here]
          · intro key
            rw [values, own, firstPass]
            cases known fs build before occ.name <;> simp [written, Option.or_assoc]

end FirstPass

/-! `parse_test_arguments`. -/
section SecondPass
variable {fs : FileSystem} {options : Registry} {types : Text → ArgType}

/-- An option argument that the second pass does not stop at. -/
theorem test_option (typed : TypedBy types options) (name : Text) (occ : Occurrence)
    (named : convertDashes (optionParts name).1 = occ.name)
    (valued : (optionParts name).2 = occ.value)
    (done : (parseOption fs options name false).2 = true) :
    TypedBy types (parseOption fs options name false).1 ∧
    (optionValues (types occ.name) occ.value).isSome = true ∧
    ∀ key, valuesOf (parseOption fs options name false).1 key =
      (((occ.command types).assignment fs).wrote key).or (valuesOf options key) := by
  have found := find_option_eq options (optionParts name).1
  rw [named] at found
  cases entry : lookup options occ.name with
  | none => simp [parseOption, found, entry] at done
  | some opt =>
      have same : opt.type = types occ.name := by
        rcases typed occ.name with known | ⟨none, _⟩
        · simpa [typeOf, entry] using known
        · simp [typeOf, entry] at none
      have call : parseOption fs options name false =
          setOption fs options (optionParts name).1 occ.value (types occ.name) := by
        simp only [parseOption, found, entry, same, valued]
      rw [call] at done ⊢
      obtain ⟨accepted, taken⟩ := set_option_success done
      refine ⟨?_, taken, ?_⟩
      · have kept := set_option_typed fs (types occ.name) typed accepted
        rwa [named, Function.update_eq_self] at kept
      · intro key
        rw [set_option_values fs _ key accepted, named]
        rfl

theorem test_loop_success (argv : List (Option Text)) (typed : TypedBy types options)
    (result : Registry × List (Option Text)) (done : testLoop fs options argv = .ok result) :
    (∀ occ ∈ remaining argv, (optionValues (types occ.name) occ.value).isSome = true) ∧
    ∀ key, valuesOf result.1 key =
      (written key ((remaining argv).map fun occ => (occ.command types).assignment fs)).or
        (valuesOf options key) := by
  induction argv generalizing options result with
  | nil =>
      obtain rfl := Except.ok.inj done
      exact ⟨by simp [remaining], fun _ => rfl⟩
  | cons entry rest ih =>
      cases entry with
      | none =>
          obtain ⟨later, looped, kept⟩ := bind_ok _ _ _ done
          obtain rfl := Except.ok.inj kept
          exact ih typed later looped
      | some arg =>
          cases dashes : optionText arg with
          | none =>
              simp only [testLoop, dashes] at done
              obtain ⟨later, looped, kept⟩ := bind_ok _ _ _ done
              obtain rfl := Except.ok.inj kept
              rw [remaining_plain arg rest dashes]
              exact ih typed later looped
          | some name =>
              obtain ⟨occ, here, named, valued⟩ := option_occurrence arg name dashes
              have listed : remaining (some arg :: rest) = occ :: remaining rest := by
                simp [remaining, here]
              simp only [testLoop, dashes] at done
              cases call : parseOption fs options name false with
              | mk set returned =>
                  cases returned with
                  | false =>
                      rw [call] at done
                      cases done
                  | true =>
                      have step := test_option typed name occ named valued (by rw [call])
                      rw [call] at step done
                      obtain ⟨later, looped, kept⟩ := bind_ok _ _ _ done
                      obtain rfl := Except.ok.inj kept
                      obtain ⟨others, values⟩ := ih step.1 later looped
                      rw [listed]
                      refine ⟨?_, ?_⟩
                      · intro other member
                        rcases List.mem_cons.mp member with rfl | inRest
                        · exact step.2.1
                        · exact others other inRest
                      · intro key
                        rw [values, step.2.2, List.map_cons, written, Option.or_assoc]

end SecondPass

/-! Both passes. -/
section Passes
variable {fs : FileSystem} {build : Build} {testArgs : List Arg} {argv : List Text}

theorem general_start (fs : FileSystem) (build : Build) : GeneralState fs build []
    (sbRegisterArgSet fs (registerSets fs [] (earlierSets build)) generalArgs).1 := by
  obtain ⟨_, unvalidated, typed, values⟩ := base_registered fs build
  refine ⟨unvalidated, typed, ?_⟩
  intro key
  have present : (typeOf (sbRegisterArgSet fs (registerSets fs [] (earlierSets build))
      generalArgs).1 key).isSome = (valuesOf (sbRegisterArgSet fs
        (registerSets fs [] (earlierSets build)) generalArgs).1 key).isSome := by
    rw [typeOf, valuesOf, Option.isSome_map, Option.isSome_map]
  rw [present, values, base_written, assigned_is_some, List.any_map]
  simp [known, configBulks, lastBulk, declares, Function.comp_def, Command.assignment, argCommand]

def finalTypes (build : Build) (testArgs : List Arg) : Text → ArgType :=
  declaredTypes testArgs (baseTypes build)

def unparsed (fs : FileSystem) (build : Build) (argv : List Text) : List Occurrence :=
  leftOver fs build [] (occurrences argv)

/-- The calls of `set_option` in `parse_test_arguments`. -/
def secondPass (fs : FileSystem) (build : Build) (testArgs : List Arg) (argv : List Text) :
    List Command :=
  testArgs.map argCommand ++
    (unparsed fs build argv).map (Occurrence.command (finalTypes build testArgs))

theorem parse_general_success (argv : List Text) (result : GeneralArguments)
    (done : parseGeneralArguments fs generalArgs (registerSets fs [] (earlierSets build)) argv =
      .ok result) :
    remaining result.argv = unparsed fs build argv ∧ TypedBy (baseTypes build) result.options ∧
    ∀ key, valuesOf result.options key =
      (written key ((firstPass fs build [] (occurrences argv)).map (Command.assignment fs))).or
        (assigned key ((baseArgs build).map fun arg => (argCommand arg).assignment fs)) := by
  have start := general_start fs build
  obtain ⟨registered, _, _, defaults⟩ := base_registered fs build
  rw [parseGeneralArguments] at done
  cases call : sbRegisterArgSet fs (registerSets fs [] (earlierSets build)) generalArgs with
  | mk options returned =>
      rw [call] at start registered defaults done
      obtain rfl : returned = true := registered
      obtain ⟨left, typed, values⟩ := general_loop_success argv none none start result done
      refine ⟨left, typed, ?_⟩
      intro key
      rw [values, defaults, base_written]

theorem parse_test_success (options : Registry) (argv : List (Option Text))
    (types : Text → ArgType) (typed : TypedBy types options)
    (result : Registry × List (Option Text))
    (done : parseTestArguments fs testArgs options argv = .ok result) :
    (∀ arg ∈ testArgs, (optionValues arg.type arg.value).isSome = true) ∧
    (∀ occ ∈ remaining argv,
      (optionValues (declaredTypes testArgs types occ.name) occ.value).isSome = true) ∧
    ∀ key, valuesOf result.1 key =
      (written key ((testArgs.map argCommand ++
        (remaining argv).map (Occurrence.command (declaredTypes testArgs types))).map
          (Command.assignment fs))).or (valuesOf options key) := by
  rw [parseTestArguments] at done
  cases call : sbRegisterArgSet fs options testArgs with
  | mk registered returned =>
      rw [call] at done
      cases returned with
      | false => cases done
      | true =>
          have whole : (registerArgs fs (testArgs.head?.bind Arg.validate) options testArgs).2 =
              true := by
            rw [← sbRegisterArgSet, call]
          obtain ⟨defaults, retyped, own⟩ := register_args_success testArgs types typed whole
          rw [← sbRegisterArgSet, call] at retyped own
          obtain ⟨taken, values⟩ := test_loop_success argv retyped result done
          refine ⟨defaults, taken, ?_⟩
          intro key
          rw [values, own, List.map_append, written_append, Option.or_assoc, List.map_map,
            List.map_map]
          rfl

/-- A successful run is a sequence of assignments: the defaults of the program, the
first pass, the defaults of the test and the second pass. -/
theorem parse_arguments_success (final : Registry)
    (done : parseArguments fs build testArgs argv = .ok final) :
    (∀ command ∈ secondPass fs build testArgs argv,
      (optionValues command.type command.value).isSome = true) ∧
    ∀ key, valuesOf final key =
      (written key ((secondPass fs build testArgs argv).map (Command.assignment fs))).or
        ((written key ((firstPass fs build [] (occurrences argv)).map
          (Command.assignment fs))).or
          (assigned key ((baseArgs build).map fun arg => (argCommand arg).assignment fs))) := by
  obtain ⟨general, first, rest⟩ := bind_ok _ _ _ done
  obtain ⟨tested, second, same⟩ := bind_ok _ _ _ rest
  obtain rfl := Except.ok.inj same
  obtain ⟨left, typed, before⟩ := parse_general_success argv general first
  obtain ⟨defaults, taken, after⟩ := parse_test_success general.options general.argv _ typed
    tested second
  rw [left] at taken after
  constructor
  · intro command member
    rcases List.mem_append.mp member with inTest | inLeft
    · obtain ⟨arg, listed, rfl⟩ := List.mem_map.mp inTest
      exact defaults arg listed
    · obtain ⟨occ, listed, rfl⟩ := List.mem_map.mp inLeft
      exact taken occ listed
  · intro key
    rw [after, before]
    rfl

end Passes
end PteSysbench.ArgumentParser
