import PteSysbench.ActionSystem
import PteSysbench.DbDriver
import PteSysbench.OptionRegistry
import Mathlib.Data.List.Forall2
import Mathlib.Data.List.Nodup
import Mathlib.Data.List.Perm.Basic

/-!
`read_cmdline_options` of sysbench.cmdline.lua, from a table of definitions to the array
that `sb_lua_set_test_args` copies. A Lua table is a list of keys and values in the order
of `pairs`; the sorting iterator keeps its index in the table it walks.
-/

namespace PteSysbench.CmdlineOptions

open DbDriver OptionRegistry

/-! Lua values and tables. -/
section Lua

abbrev LuaString := List UInt8

def lua (s : String) : LuaString := (text s).map Subtype.val

/-- A number is a double; a function is known by its address. -/
inductive Value where
  | nil
  | boolean (b : Bool)
  | number (bits : UInt64)
  | string (s : LuaString)
  | list (items : List LuaString)
  | function (address : Nat)
  deriving DecidableEq

/-- `type(v)`. -/
def typeName : Value → LuaString
  | .nil => lua "nil"
  | .boolean _ => lua "boolean"
  | .number _ => lua "number"
  | .string _ => lua "string"
  | .list _ => lua "table"
  | .function _ => lua "function"

/-- What a table of tables holds: arrays, or anything else. -/
inductive Entry where
  | array (values : List Value)
  | other (value : Value)
  deriving DecidableEq

/-- `def[k]`. -/
def Entry.item (entry : Entry) (k : Nat) : Value :=
  match entry with
  | .array values => values.getD (k - 1) .nil
  | .other _ => .nil

abbrev Table := List (LuaString × Entry)

def Table.get (t : Table) (key : LuaString) : Entry :=
  match t.find? fun entry => entry.1 = key with
  | some entry => entry.2
  | none => .other .nil

def Table.set (t : Table) (key : LuaString) (value : Entry) : Table :=
  if t.any fun entry => entry.1 = key then
    t.map fun entry => if entry.1 = key then (key, value) else entry
  else t ++ [(key, value)]

def Table.remove (t : Table) (key : LuaString) : Table := t.filter fun entry => entry.1 ≠ key

/-- `t[key]`. -/
def Table.index (t : Table) : Value → Entry
  | .string key => t.get key
  | _ => .other .nil

/-- Strings are compared byte by byte, and by length. -/
def strLess : LuaString → LuaString → Bool
  | _, [] => false
  | [], _ :: _ => true
  | a :: s, b :: t => if a = b then strLess s t else decide (a < b)

/-- `SB_ARG_TYPE_*`. -/
def argIndex : ArgType → Nat
  | .null => 0
  | .bool => 1
  | .int => 2
  | .size => 3
  | .double => 4
  | .string => 5
  | .list => 6
  | .file => 7

/-- `sysbench.cmdline.ARG_*`, the enumeration as a number. -/
def argNumber : ArgType → Value
  | .null => .number 0
  | .bool => .number 0x3FF0000000000000
  | .int => .number 0x4000000000000000
  | .size => .number 0x4008000000000000
  | .double => .number 0x4010000000000000
  | .string => .number 0x4014000000000000
  | .list => .number 0x4018000000000000
  | .file => .number 0x401C000000000000

/-- `arg_types`. -/
def argTypes (type : LuaString) : Value :=
  if type = lua "boolean" then argNumber .bool
  else if type = lua "string" then argNumber .string
  else if type = lua "number" then argNumber .double
  else if type = lua "table" then argNumber .list
  else .nil
end Lua

/-! Values of C. -/
section Conversions

/-- `sb_arg_t`. -/
structure SbArg (Str : Type) where
  name : Option Str
  desc : Option Str
  value : Option Str
  type : UInt32
  validate : Option Nat
  deriving DecidableEq

/-- `ffi.new` fills its arrays with zeros. -/
def emptyArg {Str : Type} : SbArg Str :=
  { name := none, desc := none, value := none, type := 0, validate := none }

inductive Error where
  | assertion (message : LuaString)
  | badConversion
  | tooManyCallbacks
  | outOfBounds
  | nullString
  | unfinished
  deriving DecidableEq

/-- `assert(condition, message)`. -/
def luaAssert (condition : Bool) (message : LuaString) : Except Error Unit :=
  if condition then .ok () else .error (.assertion message)

def toCharPointer : Value → Except Error (Option LuaString)
  | .string s => .ok (some s)
  | .nil => .ok none
  | _ => .error .badConversion

/-- The integer part of a double, into 32 bits. -/
def doubleToEnum (bits : UInt64) : UInt32 :=
  let exponent := bits.toNat / 2 ^ 52 % 2 ^ 11
  let fraction := bits.toNat % 2 ^ 52
  let significand := if exponent = 0 then fraction else fraction + 2 ^ 52
  let whole := if 1075 ≤ exponent then significand <<< (exponent - 1075)
    else significand >>> (1075 - exponent)
  UInt32.ofInt (if bits.toNat / 2 ^ 63 = 1 then -(whole : Int) else whole)

/-- The constants of `sb_arg_type_t`, by name. -/
def enumConstant (name : LuaString) : Option UInt32 :=
  [("SB_ARG_TYPE_NULL", 0), ("SB_ARG_TYPE_BOOL", 1), ("SB_ARG_TYPE_INT", 2),
    ("SB_ARG_TYPE_SIZE", 3), ("SB_ARG_TYPE_DOUBLE", 4), ("SB_ARG_TYPE_STRING", 5),
    ("SB_ARG_TYPE_LIST", 6), ("SB_ARG_TYPE_FILE", 7), ("SB_ARG_TYPE_MAX", 8)].findSome?
      fun (constant, value) => if lua constant = name then some value else none

def toEnum : Value → Except Error UInt32
  | .number bits => .ok (doubleToEnum bits)
  | .boolean b => .ok (if b then 1 else 0)
  | .string s => match enumConstant s with
      | some value => .ok value
      | none => .error .badConversion
  | _ => .error .badConversion

/-- A Lua function takes one of the callback slots for good. -/
def toFunctionPointer (slots : Nat) : Value → Except Error (Option Nat × Nat)
  | .nil => .ok (none, slots)
  | .function address =>
      if slots = 0 then .error .tooManyCallbacks else .ok (some address, slots - 1)
  | _ => .error .badConversion

/-- A deep copy; `strdup(NULL)` is an error here. -/
def copyArg (arg : SbArg LuaString) : Except Error (SbArg Text) :=
  match arg.name, arg.desc with
  | some name, some desc => .ok { arg with
      name := some (cString name), desc := some (cString desc), value := arg.value.map cString }
  | _, _ => .error .nullString

def sbLuaSetTestArgs (args : List (SbArg LuaString)) (len : Nat) :
    Except Error (List (SbArg Text)) := do
  let copies ← (args.take len).mapM copyArg
  .ok (copies ++ [emptyArg])
end Conversions

/-! The script. -/
section Script

/-- `__orderedIndex`. -/
def orderedIndexKey : LuaString := lua "__orderedIndex"

/-- `table.sort` of the keys. -/
def genOrderedIndex (t : Table) : List LuaString :=
  (t.map Prod.fst).mergeSort fun a b => !strLess b a

def orderedNext (t : Table) (state : Value) : Table × Option (Value × Entry) :=
  let t := if state = .nil then
      t.set orderedIndexKey (.array ((genOrderedIndex t).map .string))
    else t
  let index := t.get orderedIndexKey
  let key := if state = .nil then index.item 1
    else match index with
      | .array values => (List.range values.length).foldl (fun key i =>
          if index.item (i + 1) = state then index.item (i + 2) else key) .nil
      | .other _ => .nil
  match key with
  | .nil => (t.remove orderedIndexKey, none)
  | key => (t, some (key, t.index key))

/-- `args[i].value`. -/
def readValue (tostring : UInt64 → LuaString) (name : LuaString) (def_ : Entry) :
    Except Error (Option LuaString) :=
  match def_.item 2 with
  | .list items => do
      -- a type name is compared with a number
      luaAssert (typeName (def_.item 3) = lua "nil" ∨
        Value.string (typeName (def_.item 3)) = argNumber .list)
        (lua "wrong type for list option " ++ name)
      .ok (some (separated 44 items))
  | .boolean b => .ok (some (if b then lua "on" else lua "off"))
  | .number bits => .ok (some (tostring bits))
  | default => toCharPointer default

/-- `args[i].type`. -/
def readType (name : LuaString) (def_ : Entry) : Except Error UInt32 := do
  let t := if def_.item 3 = .nil then
      if def_.item 2 ≠ .nil then argTypes (typeName (def_.item 2)) else argNumber .string
    else def_.item 3
  luaAssert (t ≠ .nil) (lua "cannot determine type for option " ++ name)
  toEnum t

/-- What is stored in `args[i]`, and the callback slots left. -/
def readOption (tostring : UInt64 → LuaString) (slots : Nat) (name : Value) (def_ : Entry) :
    Except Error (SbArg LuaString × Nat) :=
  match name, def_ with
  | .string name, .array _ => do
      luaAssert (def_.item 1 ≠ .nil) (lua "nil description for option " ++ name)
      let desc ← toCharPointer (def_.item 1)
      let value ← readValue tostring name def_
      let type ← readType name def_
      let (validate, slots) ← toFunctionPointer slots (def_.item 4)
      .ok ({ name := some name, desc, value, type, validate }, slots)
  | _, _ => .error (.assertion (lua "wrong table structure in sysbench.cmdline.options"))

/-- The loop over `orderedPairs`; `i` options have been read. -/
def readOptions (tostring : UInt64 → LuaString) : Nat → Table → Value →
    List (SbArg LuaString) → Nat → Nat → Except Error (Table × List (SbArg LuaString) × Nat)
  | 0, _, _, _, _, _ => .error .unfinished
  | fuel + 1, t, state, args, i, slots =>
      match orderedNext t state with
      | (t, none) => .ok (t, args, i)
      | (t, some (name, def_)) => do
          let (arg, slots) ← readOption tostring slots name def_
          if i < args.length then
            readOptions tostring fuel t name (args.set i arg) (i + 1) slots
          else .error .outOfBounds

/-- `passed` is what `sb_lua_set_test_args` is given, `copied` what it stores. -/
structure Outcome where
  options : Table
  passed : List (SbArg LuaString)
  copied : List (SbArg Text)
  deriving DecidableEq

inductive Options where
  | absent
  | notTable (type : LuaString)
  | table (t : Table)

/-- `none` where there is nothing to read. Each key is visited once, and a last call ends
the loop. -/
def readCmdlineOptions (tostring : UInt64 → LuaString) (slots : Nat) :
    Options → Except Error (Option Outcome)
  | .absent => .ok none
  | .notTable type =>
      .error (.assertion (lua "wrong type for sysbench.cmdline.options: " ++ type))
  | .table t => do
      let count := t.length
      let args := List.replicate count emptyArg
      let (t, args, i) ← readOptions tostring (count + 1) t .nil args 0 slots
      let copied ← sbLuaSetTestArgs args i
      .ok (some { options := t, passed := args.take i, copied })

/-- A definition as scripts write it; a type other than LIST does not fit a list. -/
structure WellFormed (entry : Entry) : Prop where
  array : ∃ values, entry = .array values
  desc : ∃ desc, entry.item 1 = .string desc
  default : ∀ address, entry.item 2 ≠ .function address
  type : entry.item 3 = .nil ∨ ∃ type, entry.item 3 = argNumber type
  list : ∀ items, entry.item 2 = .list items →
    entry.item 3 = .nil ∨ entry.item 3 = argNumber .list
  validate : entry.item 4 = .nil ∨ ∃ address, entry.item 4 = .function address

structure Definitions where
  table : Table
  distinct : (table.map Prod.fst).Nodup
  wellFormed : ∀ entry ∈ table, WellFormed entry.2

def defaultText (tostring : UInt64 → LuaString) : Value → Option LuaString
  | .boolean b => some (if b then lua "on" else lua "off")
  | .number bits => some (tostring bits)
  | .string s => some s
  | .list items => some (separated 44 items)
  | _ => none

def inferredType : Value → ArgType
  | .boolean _ => .bool
  | .number _ => .double
  | .list _ => .list
  | _ => .string

/-- An entry of the array says what the definition says. -/
structure Describes (tostring : UInt64 → LuaString) (name : LuaString) (entry : Entry)
    (arg : SbArg LuaString) : Prop where
  name : arg.name = some name
  desc : arg.desc.map Value.string = some (entry.item 1)
  value : arg.value = defaultText tostring (entry.item 2)
  inferred : entry.item 3 = .nil → arg.type = (argIndex (inferredType (entry.item 2))).toUInt32
  declared : ∀ type, entry.item 3 = argNumber type → arg.type = (argIndex type).toUInt32
  validate : (arg.validate.elim .nil .function : Value) = entry.item 4

/-- One entry for each option in the order of the names, and the table as it was. -/
structure Read (tostring : UInt64 → LuaString) (t : Table) (outcome : Outcome) : Prop where
  passed : ∃ names, names.Perm (t.map Prod.fst) ∧
    names.Pairwise (fun a b => strLess a b = true) ∧
      List.Forall₂ (fun name => Describes tostring name (t.get name)) names outcome.passed
  copied : ∃ copies, outcome.passed.mapM copyArg = .ok copies ∧
    outcome.copied = copies ++ [emptyArg]
  options : ∀ key, outcome.options.get key = t.get key

/-- No option has the name of the index, no list a type; and there is a callback slot for
each validator. -/
structure Readable (slots : Nat) (t : Table) : Prop where
  named : orderedIndexKey ∉ t.map Prod.fst
  untyped : ∀ entry ∈ t, ∀ items, entry.2.item 2 = .list items → entry.2.item 3 = .nil
  slots : t.countP (fun entry => entry.2.item 4 ≠ .nil) ≤ slots
end Script

/-! The order of names. -/
section Order
variable {a b c : LuaString}

theorem str_less_cons (x y : UInt8) (s t : LuaString) : strLess (x :: s) (y :: t) = true ↔
    x < y ∨ x = y ∧ strLess s t = true := by
  rw [strLess]
  split
  · rename_i same
    simp [same]
  · rename_i other
    simp [other]

theorem str_less_trans (first : strLess a b = true) (second : strLess b c = true) :
    strLess a c = true := by
  induction a generalizing b c with
  | nil =>
      cases c with
      | nil => cases b <;> cases second
      | cons z c => rfl
  | cons x a ih =>
      cases b with
      | nil => cases first
      | cons y b =>
          cases c with
          | nil => cases second
          | cons z c =>
              rw [str_less_cons] at first second ⊢
              rcases first with below | ⟨rfl, first⟩
              · rcases second with above | ⟨rfl, _⟩
                · exact Or.inl (UInt8.lt_trans below above)
                · exact Or.inl below
              · rcases second with above | ⟨rfl, second⟩
                · exact Or.inl above
                · exact Or.inr ⟨rfl, ih first second⟩

theorem str_less_trichotomy (a b : LuaString) :
    strLess a b = true ∨ a = b ∨ strLess b a = true := by
  induction a generalizing b with
  | nil =>
      cases b with
      | nil => exact Or.inr (Or.inl rfl)
      | cons y b => exact Or.inl rfl
  | cons x a ih =>
      cases b with
      | nil => exact Or.inr (Or.inr rfl)
      | cons y b =>
          rw [str_less_cons, str_less_cons]
          by_cases same : x = y
          · subst same
            rcases ih b with less | rfl | more
            · exact Or.inl (Or.inr ⟨rfl, less⟩)
            · exact Or.inr (Or.inl rfl)
            · exact Or.inr (Or.inr (Or.inr ⟨rfl, more⟩))
          · rcases UInt8.lt_or_lt_of_ne same with less | more
            · exact Or.inl (Or.inl less)
            · exact Or.inr (Or.inr (Or.inl more))

theorem str_less_irrefl (a : LuaString) : strLess a a = false := by
  induction a with
  | nil => rfl
  | cons x a ih => rw [strLess, if_pos rfl, ih]

theorem not_less_iff (a b : LuaString) : strLess b a = false ↔ strLess a b = true ∨ a = b := by
  constructor
  · intro not_
    rcases str_less_trichotomy a b with less | same | more
    · exact Or.inl less
    · exact Or.inr same
    · rw [not_] at more
      cases more
  · rintro (less | rfl)
    · by_contra more
      have around := str_less_trans less (Bool.of_not_eq_false more)
      rw [str_less_irrefl] at around
      cases around
    · exact str_less_irrefl a

theorem ordered_index_perm (t : Table) : (genOrderedIndex t).Perm (t.map Prod.fst) :=
  List.mergeSort_perm _ _

theorem ordered_index_pairwise (t : Table) (distinct : (t.map Prod.fst).Nodup) :
    (genOrderedIndex t).Pairwise fun a b => strLess a b = true := by
  have sorted : (genOrderedIndex t).Pairwise fun a b => (!strLess b a) = true := by
    apply List.pairwise_mergeSort
    · intro a b c first second
      simp only [Bool.not_eq_true', not_less_iff] at first second ⊢
      rcases first with less | rfl
      · rcases second with more | rfl
        · exact Or.inl (str_less_trans less more)
        · exact Or.inl less
      · exact second
    · intro a b
      cases less : strLess b a with
      | false => rfl
      | true => simp [(not_less_iff b a).mpr (Or.inl less)]
  have apart := (ordered_index_perm t).nodup_iff.mpr distinct
  apply (sorted.and apart).imp
  rintro a b ⟨less, other⟩
  rw [Bool.not_eq_true', not_less_iff] at less
  exact less.resolve_right other
end Order

/-! Keys of a table. -/
section Tables
variable {t : Table} {key other : LuaString} {value : Entry}

theorem get_of_mem (distinct : (t.map Prod.fst).Nodup) (member : (key, value) ∈ t) :
    t.get key = value := by
  induction t with
  | nil => cases member
  | cons first rest ih =>
      rw [List.map_cons, List.nodup_cons] at distinct
      rw [Table.get, List.find?_cons]
      rcases List.mem_cons.mp member with rfl | later
      · simp
      · have apart : first.1 ≠ key := fun same =>
          distinct.1 (same ▸ List.mem_map_of_mem (f := Prod.fst) later)
        simp only [apart, decide_false]
        exact ih distinct.2 later

theorem get_of_not_mem (absent : key ∉ t.map Prod.fst) : t.get key = .other .nil := by
  have none_ : t.find? (fun entry => entry.1 = key) = none := by
    rw [List.find?_eq_none]
    intro entry member same
    exact absent (of_decide_eq_true same ▸ List.mem_map_of_mem member)
  rw [Table.get, none_]

theorem set_of_not_mem (absent : key ∉ t.map Prod.fst) : t.set key value = t ++ [(key, value)] := by
  apply if_neg
  intro present
  obtain ⟨entry, member, same⟩ := List.any_eq_true.mp present
  exact absent (of_decide_eq_true same ▸ List.mem_map_of_mem member)

theorem remove_set (absent : key ∉ t.map Prod.fst) : (t.set key value).remove key = t := by
  rw [set_of_not_mem absent, Table.remove, List.filter_append]
  have kept : t.filter (fun entry => entry.1 ≠ key) = t := by
    rw [List.filter_eq_self]
    intro entry member
    exact decide_eq_true fun same => absent (same ▸ List.mem_map_of_mem member)
  rw [kept]
  simp

theorem get_remove (t : Table) (key : LuaString) : (t.remove key).get key = .other .nil := by
  apply get_of_not_mem
  intro member
  obtain ⟨entry, kept, same⟩ := List.mem_map.mp member
  exact of_decide_eq_true (List.mem_filter.mp kept).2 same

/-- Overwriting a value leaves the keys where they are. -/
theorem find_overwritten (t : Table) (key other : LuaString) (value : Entry) :
    (t.map fun entry => if entry.1 = key then (key, value) else entry).find?
      (fun entry => entry.1 = other) =
    (t.find? fun entry => entry.1 = other).map fun entry =>
      if entry.1 = key then (key, value) else entry := by
  rw [List.find?_map]
  congr 2
  funext entry
  by_cases here : entry.1 = key
  · simp [here]
  · simp [here]

theorem get_set (t : Table) (key : LuaString) (value : Entry) :
    (t.set key value).get key = value := by
  rw [Table.set]
  split
  · rename_i present
    rw [Table.get, find_overwritten]
    cases found : t.find? fun entry => entry.1 = key with
    | none =>
        obtain ⟨entry, member, same⟩ := List.any_eq_true.mp present
        exact absurd same (List.find?_eq_none.mp found entry member)
    | some entry =>
        have matched := List.find?_some found
        have same := of_decide_eq_true matched
        rw [Option.map_some, if_pos same]
  · rename_i absent
    have none_ : t.find? (fun entry => entry.1 = key) = none := by
      rw [List.find?_eq_none]
      exact fun entry member same => absent (List.any_eq_true.mpr ⟨entry, member, same⟩)
    rw [Table.get, List.find?_append, none_, Option.none_or]
    simp

theorem get_set_other (apart : other ≠ key) : (t.set key value).get other = t.get other := by
  rw [Table.set]
  split
  · rw [Table.get, Table.get, find_overwritten]
    cases found : t.find? fun entry => entry.1 = other with
    | none => rfl
    | some entry =>
        have matched := List.find?_some found
        have same := of_decide_eq_true matched
        rw [Option.map_some, if_neg (same ▸ apart)]
  · rw [Table.get, Table.get, List.find?_append]
    simp [apart.symm]
end Tables

/-! The iterator. -/
section Iterator
variable {t : Table} {names : List LuaString}

/-- What a call of `orderedNext` gives when `rest` is still to come. -/
def comes (t : Table) : List LuaString → Table × Option (Value × Entry)
  | [] => (t.remove orderedIndexKey, none)
  | name :: _ => (t, some (.string name, t.get name))

theorem index_item (names : List LuaString) (i : Nat) :
    (Entry.array (names.map .string)).item (i + 1) =
      (names[i]?).elim .nil Value.string := by
  rw [Entry.item, Nat.add_sub_cancel, List.getD_eq_getElem?_getD, List.getElem?_map]
  cases names[i]? with
  | none => rfl
  | some name => rfl

/-- The first call sorts the keys and keeps them in the table. -/
theorem first_next (t : Table) : orderedNext t .nil =
    comes (t.set orderedIndexKey (.array ((genOrderedIndex t).map .string)))
      (genOrderedIndex t) := by
  simp only [orderedNext, if_true, get_set]
  rw [show (1 : Nat) = 0 + 1 from rfl, index_item]
  cases genOrderedIndex t with
  | nil => rfl
  | cons name rest => rfl

theorem position_iff (distinct : names.Nodup) (before rest : List LuaString) (name : LuaString)
    (split : names = before ++ name :: rest) (i : Nat) :
    (names[i]?).elim .nil Value.string = .string name ↔ i = before.length := by
  have here : names[before.length]? = some name := by
    rw [split, List.getElem?_append_right (Nat.le_refl _), Nat.sub_self]
    rfl
  constructor
  · intro same
    cases found : names[i]? with
    | none =>
        rw [found] at same
        cases same
    | some other =>
        rw [found] at same
        obtain rfl := Value.string.inj same
        have inside := (List.getElem?_eq_some_iff.mp found).1
        exact (List.getElem?_inj inside distinct).mp (found.trans here.symm)
  · rintro rfl
    rw [here]
    rfl

/-- The search for the state runs through the whole index; the keys are distinct. -/
theorem search_found (distinct : names.Nodup) (before rest : List LuaString) (name : LuaString)
    (split : names = before ++ name :: rest) (count : Nat) :
    (List.range count).foldl (fun key i =>
      if (Entry.array (names.map .string)).item (i + 1) = .string name then
        (Entry.array (names.map .string)).item (i + 2) else key) .nil =
    if before.length < count then (rest.head?).elim .nil Value.string else .nil := by
  induction count with
  | zero => rfl
  | succ count ih =>
      rw [List.range_succ, List.foldl_append, ih, List.foldl_cons, List.foldl_nil, index_item,
        index_item]
      by_cases here : count = before.length
      · have after : names[count + 1]? = rest.head? := by
          rw [split, here, List.getElem?_append_right (Nat.le_add_right _ 1),
            Nat.add_sub_cancel_left]
          cases rest <;> rfl
        rw [if_pos ((position_iff distinct before rest name split count).mpr here), after,
          if_pos (by omega)]
      · rw [if_neg fun same =>
          here ((position_iff distinct before rest name split count).mp same)]
        by_cases past : before.length < count
        · rw [if_pos past, if_pos (by omega)]
        · rw [if_neg past, if_neg (by omega)]

/-- A later call finds its key behind the state. -/
theorem later_next (indexed : t.get orderedIndexKey = .array (names.map .string))
    (distinct : names.Nodup) (before rest : List LuaString) (name : LuaString)
    (split : names = before ++ name :: rest) :
    orderedNext t (.string name) = comes t rest := by
  have length : before.length < (names.map Value.string).length := by
    rw [split, List.length_map, List.length_append, List.length_cons]
    omega
  have state : Value.string name ≠ .nil := fun same => nomatch same
  simp only [orderedNext, if_neg state, indexed, search_found distinct before rest name split,
    if_pos length]
  cases rest with
  | nil => rfl
  | cons next rest => rfl
end Iterator

/-! The loop. -/
section Loop
variable {tostring : UInt64 → LuaString} {t : Table} {names : List LuaString}

/-- The options of a list of names, read one after the other. -/
def readAll (tostring : UInt64 → LuaString) (t : Table) :
    List LuaString → Nat → Except Error (List (SbArg LuaString) × Nat)
  | [], slots => .ok ([], slots)
  | name :: rest, slots => do
      let (arg, slots) ← readOption tostring slots (.string name) (t.get name)
      let (more, slots) ← readAll tostring t rest slots
      .ok (arg :: more, slots)

theorem read_all_length (rest : List LuaString) (slots left : Nat)
    (args : List (SbArg LuaString)) (read : readAll tostring t rest slots = .ok (args, left)) :
    args.length = rest.length := by
  induction rest generalizing slots args with
  | nil =>
      cases read
      rfl
  | cons name rest ih =>
      obtain ⟨⟨arg, slots⟩, _, read⟩ := ActionSystem.bind_ok _ _ _ read
      obtain ⟨⟨more, final⟩, later, read⟩ := ActionSystem.bind_ok _ _ _ read
      cases read
      exact congrArg (· + 1) (ih slots more later)

/-- The loop reads what is still to come and then takes the index away. -/
theorem read_options_rest (indexed : t.get orderedIndexKey = .array (names.map .string))
    (distinct : names.Nodup) (before rest : List LuaString) (split : names = before ++ rest)
    (fuel : Nat) (enough : rest.length < fuel) (state : Value) (table : Table)
    (next : orderedNext table state = comes t rest) (args : List (SbArg LuaString)) (i slots : Nat)
    (room : i + rest.length ≤ args.length) :
    readOptions tostring fuel table state args i slots =
      (readAll tostring t rest slots).map fun (more, _) =>
        (t.remove orderedIndexKey, args.take i ++ more ++ args.drop (i + rest.length),
          i + rest.length) := by
  -- the state is the name before `rest`, or nil in the first call
  induction rest generalizing before fuel state table args i slots with
  | nil =>
      obtain ⟨fuel, rfl⟩ := Nat.exists_eq_succ_of_ne_zero (Nat.ne_of_gt enough)
      rw [readOptions, next]
      simp [comes, readAll, Except.map]
  | cons name rest ih =>
      obtain ⟨fuel, rfl⟩ := Nat.exists_eq_succ_of_ne_zero (Nat.ne_of_gt (Nat.zero_lt_of_lt enough))
      rw [readOptions, next]
      simp only [comes, readAll]
      cases read : readOption tostring slots (.string name) (t.get name) with
      | error e => rfl
      | ok one =>
          obtain ⟨arg, slots⟩ := one
          have inside : i < args.length := by
            rw [List.length_cons] at room
            omega
          have onwards := ih (before ++ [name]) (by rw [split, List.append_assoc]; rfl) fuel
            (Nat.lt_of_succ_lt_succ enough) (.string name) t
            (later_next indexed distinct before rest name split) (args.set i arg) (i + 1) slots
            (by rw [List.length_set]; rw [List.length_cons] at room; omega)
          have stored : (args.set i arg).take (i + 1) = args.take i ++ [arg] := by
            rw [List.take_add_one, List.take_set_of_le (Nat.le_refl i),
              List.getElem?_set_self inside]
            rfl
          have behind : (args.set i arg).drop (i + 1 + rest.length) =
              args.drop (i + (rest.length + 1)) := by
            rw [List.drop_set_of_lt (by omega), Nat.add_assoc, Nat.add_comm 1]
          simp only [bind, Except.bind, if_pos inside, onwards, stored, behind]
          cases readAll tostring t rest slots with
          | error e => rfl
          | ok more =>
              simp only [Except.map, List.length_cons, List.append_assoc,
                List.cons_append, List.nil_append]
              rw [Nat.add_assoc, Nat.add_comm 1]
end Loop

/-! One option. -/
section OneOption
variable {tostring : UInt64 → LuaString} {name : LuaString} {entry : Entry}

theorem arg_number_some (type : ArgType) : argNumber type ≠ .nil := by
  cases type <;> decide

theorem to_enum_constant (type : ArgType) :
    toEnum (argNumber type) = .ok (argIndex type).toUInt32 := by
  cases type <;> rfl

theorem type_name_nil (value : Value) : typeName value = lua "nil" ↔ value = .nil := by
  constructor
  · intro same
    cases value with
    | nil => rfl
    | _ => exact absurd same (by simp only [typeName]; decide)
  · rintro rfl
    rfl

theorem read_value_untyped (known : ∀ address, entry.item 2 ≠ .function address)
    (untyped : ∀ items, entry.item 2 = .list items → entry.item 3 = .nil) :
    readValue tostring name entry = .ok (defaultText tostring (entry.item 2)) := by
  rw [readValue]
  cases value : entry.item 2 with
  | list items =>
      rw [luaAssert, if_pos (decide_eq_true (Or.inl ((type_name_nil _).mpr (untyped items value))))]
      rfl
  | function address => exact absurd value (known address)
  | _ => rfl

/-- The name of a type is no number, so a list with any type is refused. -/
theorem read_value_typed (items : List LuaString) (list : entry.item 2 = .list items)
    (typed : entry.item 3 ≠ .nil) : readValue tostring name entry =
      .error (.assertion (lua "wrong type for list option " ++ name)) := by
  have differ : ¬ (typeName (entry.item 3) = lua "nil" ∨
      Value.string (typeName (entry.item 3)) = argNumber .list) := by
    rintro (nil_ | number)
    · exact typed ((type_name_nil _).mp nil_)
    · cases number
  rw [readValue, list]
  simp only [luaAssert, decide_eq_false differ]
  rfl

theorem read_type_inferred (known : ∀ address, entry.item 2 ≠ .function address)
    (untyped : entry.item 3 = .nil) :
    readType name entry = .ok (argIndex (inferredType (entry.item 2))).toUInt32 := by
  rw [readType]
  cases value : entry.item 2 with
  | function address => exact absurd value (known address)
  | _ => simp only [untyped]; rfl

theorem read_type_declared (type : ArgType) (declared : entry.item 3 = argNumber type) :
    readType name entry = .ok (argIndex type).toUInt32 := by
  rw [readType]
  simp only [declared, if_neg (arg_number_some type), luaAssert,
    decide_eq_true (arg_number_some type)]
  exact to_enum_constant type

/-- What is known of an option's entry before its validator is stored. -/
structure Settled (tostring : UInt64 → LuaString) (name : LuaString) (entry : Entry)
    (base : SbArg LuaString) : Prop where
  read : ∀ slots, readOption tostring slots (.string name) entry =
    (toFunctionPointer slots (entry.item 4)).map fun (validate, left) =>
      ({ base with validate }, left)
  name : base.name = some name
  desc : base.desc.map Value.string = some (entry.item 1)
  value : base.value = defaultText tostring (entry.item 2)
  inferred : entry.item 3 = .nil → base.type = (argIndex (inferredType (entry.item 2))).toUInt32
  declared : ∀ type, entry.item 3 = argNumber type → base.type = (argIndex type).toUInt32

theorem read_type_fits (name : LuaString) (wellFormed : WellFormed entry) : ∃ type,
    readType name entry = .ok type ∧
      (entry.item 3 = .nil → type = (argIndex (inferredType (entry.item 2))).toUInt32) ∧
        ∀ declared, entry.item 3 = argNumber declared → type = (argIndex declared).toUInt32 := by
  rcases wellFormed.type with untyped | ⟨type, declared⟩
  · refine ⟨_, read_type_inferred wellFormed.default untyped, fun _ => rfl, fun type declared => ?_⟩
    exact absurd (declared.symm.trans untyped) (arg_number_some type)
  · refine ⟨_, read_type_declared type declared, fun untyped => ?_, fun other same => ?_⟩
    · exact absurd (declared.symm.trans untyped) (arg_number_some type)
    · have first : readType name entry = _ := read_type_declared type declared
      have second : readType name entry = _ := read_type_declared other same
      exact Except.ok.inj (first.symm.trans second)

theorem well_formed_settled (wellFormed : WellFormed entry)
    (untyped : ∀ items, entry.item 2 = .list items → entry.item 3 = .nil) :
    ∃ base, Settled tostring name entry base := by
  obtain ⟨values, rfl⟩ := wellFormed.array
  obtain ⟨desc, described⟩ := wellFormed.desc
  obtain ⟨type, typed, inferred, declared⟩ := read_type_fits name wellFormed
  refine ⟨{ name := some name, desc := some desc, value := _, type := type, validate := none },
    fun slots => ?_, rfl, ?_, rfl, inferred, declared⟩
  · rw [readOption, described, read_value_untyped wellFormed.default untyped, typed]
    cases toFunctionPointer slots ((Entry.array values).item 4) <;> rfl
  · rw [described]
    rfl

theorem read_option_typed (wellFormed : WellFormed entry) (items : List LuaString)
    (list : entry.item 2 = .list items) (typed : entry.item 3 ≠ .nil) (slots : Nat) :
    readOption tostring slots (.string name) entry =
      .error (.assertion (lua "wrong type for list option " ++ name)) := by
  obtain ⟨values, rfl⟩ := wellFormed.array
  obtain ⟨desc, described⟩ := wellFormed.desc
  rw [readOption, described, read_value_typed items list typed]
  rfl

theorem settled_describes {base : SbArg LuaString} (settled : Settled tostring name entry base)
    (validate : Option Nat) (stored : (validate.elim .nil .function : Value) = entry.item 4) :
    Describes tostring name entry { base with validate } :=
  ⟨settled.name, settled.desc, settled.value, settled.inferred, settled.declared, stored⟩
end OneOption

/-! All options. -/
section AllOptions
variable {tostring : UInt64 → LuaString} {t : Table} {names : List LuaString}

/-- The callback slots that a list of names takes. -/
def validators (t : Table) (names : List LuaString) : Nat :=
  names.countP fun name => (t.get name).item 4 ≠ .nil

theorem read_all_each {args : List (SbArg LuaString)} {slots left : Nat}
    (read : readAll tostring t names slots = .ok (args, left)) (name : LuaString)
    (member : name ∈ names) :
    ∃ slots one, readOption tostring slots (.string name) (t.get name) = .ok one := by
  induction names generalizing slots args left with
  | nil => cases member
  | cons first rest ih =>
      obtain ⟨one, here, read⟩ := ActionSystem.bind_ok _ _ _ read
      obtain ⟨⟨more, final⟩, later, _⟩ := ActionSystem.bind_ok _ _ _ read
      rcases List.mem_cons.mp member with rfl | behind
      · exact ⟨slots, one, here⟩
      · exact ih later behind

theorem read_all_some (settled : ∀ name ∈ names, ∃ base, Settled tostring name (t.get name) base)
    (wellFormed : ∀ name ∈ names, WellFormed (t.get name)) (slots : Nat)
    (enough : validators t names ≤ slots) :
    ∃ args left, readAll tostring t names slots = .ok (args, left) ∧
      List.Forall₂ (fun name => Describes tostring name (t.get name)) names args := by
  induction names generalizing slots with
  | nil => exact ⟨[], slots, rfl, .nil⟩
  | cons name rest ih =>
      obtain ⟨base, known⟩ := settled name List.mem_cons_self
      have later := ih (fun other member => settled other (List.mem_cons_of_mem _ member))
        (fun other member => wellFormed other (List.mem_cons_of_mem _ member))
      rw [validators, List.countP_cons] at enough
      rcases (wellFormed name List.mem_cons_self).validate with none_ | ⟨address, function⟩
      · rw [if_neg (by simp [none_])] at enough
        obtain ⟨args, left, read, describes⟩ := later slots enough
        refine ⟨{ base with validate := none } :: args, left, ?_, .cons ?_ describes⟩
        · rw [readAll, known.read, none_]
          simp only [toFunctionPointer, Except.map, bind, Except.bind, read]
        · exact settled_describes known none none_.symm
      · rw [if_pos (by simp [function])] at enough
        obtain ⟨slots, rfl⟩ := Nat.exists_eq_succ_of_ne_zero (Nat.ne_of_gt (Nat.lt_of_lt_of_le
          (Nat.succ_pos _) enough))
        obtain ⟨args, left, read, describes⟩ := later slots (Nat.le_of_succ_le_succ enough)
        refine ⟨{ base with validate := some address } :: args, left, ?_, .cons ?_ describes⟩
        · rw [readAll, known.read, function]
          simp only [toFunctionPointer, Except.map, bind, Except.bind, Nat.succ_ne_zero, if_false,
            Nat.succ_sub_one, read]
        · exact settled_describes known (some address) function.symm

theorem read_all_slots (settled : ∀ name ∈ names, ∃ base, Settled tostring name (t.get name) base)
    (wellFormed : ∀ name ∈ names, WellFormed (t.get name)) {args : List (SbArg LuaString)}
    {slots left : Nat} (read : readAll tostring t names slots = .ok (args, left)) :
    validators t names ≤ slots := by
  induction names generalizing slots args left with
  | nil => exact Nat.zero_le _
  | cons name rest ih =>
      obtain ⟨base, known⟩ := settled name List.mem_cons_self
      obtain ⟨⟨arg, next⟩, here, read⟩ := ActionSystem.bind_ok _ _ _ read
      obtain ⟨⟨more, final⟩, later, _⟩ := ActionSystem.bind_ok _ _ _ read
      have behind := ih (fun other member => settled other (List.mem_cons_of_mem _ member))
        (fun other member => wellFormed other (List.mem_cons_of_mem _ member)) later
      rw [validators, List.countP_cons]
      rw [known.read] at here
      rcases (wellFormed name List.mem_cons_self).validate with none_ | ⟨address, function⟩
      · rw [none_] at here
        cases here
        rw [if_neg (by simp [none_])]
        exact behind
      · rw [function, toFunctionPointer] at here
        split at here
        · cases here
        · rename_i some_
          cases here
          rw [if_pos (by simp [function])]
          exact Nat.add_le_of_le_sub (Nat.one_le_iff_ne_zero.mpr some_) behind

theorem copied_of_described {args : List (SbArg LuaString)}
    (describes : List.Forall₂ (fun name => Describes tostring name (t.get name)) names args) :
    ∃ copies, args.mapM copyArg = .ok copies := by
  induction describes with
  | nil => exact ⟨[], rfl⟩
  | @cons name arg _ _ one _ ih =>
      obtain ⟨copies, copied⟩ := ih
      obtain ⟨desc, described⟩ : ∃ desc, arg.desc = some desc := by
        have some_ := one.desc
        cases found : arg.desc with
        | none =>
            rw [found] at some_
            cases some_
        | some desc => exact ⟨desc, rfl⟩
      rw [List.mapM_cons, copyArg, one.name, described, copied]
      exact ⟨_, rfl⟩
end AllOptions

/-! Whole tables. -/
section Tables
variable {tostring : UInt64 → LuaString} {slots : Nat} (t : Table)

def indexed (t : Table) : Table :=
  t.set orderedIndexKey (.array ((genOrderedIndex t).map .string))

theorem read_table (distinct : (t.map Prod.fst).Nodup) :
    readCmdlineOptions tostring slots (.table t) =
      (readAll tostring (indexed t) (genOrderedIndex t) slots).bind fun (args, _) =>
        (sbLuaSetTestArgs args args.length).map fun copied =>
          some { options := (indexed t).remove orderedIndexKey, passed := args, copied } := by
  have names := (ordered_index_perm t).nodup_iff.mpr distinct
  have count : (genOrderedIndex t).length = t.length := by
    rw [(ordered_index_perm t).length_eq, List.length_map]
  have whole := @read_options_rest tostring (indexed t) (genOrderedIndex t)
    (get_set t orderedIndexKey _) names [] (genOrderedIndex t) rfl (t.length + 1) (by omega) .nil t
    (first_next t) (List.replicate t.length emptyArg) 0 slots
    (by rw [List.length_replicate]; omega)
  rw [readCmdlineOptions, whole]
  cases read : readAll tostring (indexed t) (genOrderedIndex t) slots with
  | error e => rfl
  | ok all =>
      obtain ⟨args, left⟩ := all
      have length := read_all_length _ _ _ _ read
      have stored : (List.replicate t.length emptyArg).take 0 ++ args ++
          (List.replicate t.length (emptyArg : SbArg LuaString)).drop args.length = args := by
        rw [length, count, List.drop_of_length_le (by rw [List.length_replicate]),
          List.append_nil]
        rfl
      simp only [Except.map, Except.bind, bind, Nat.zero_add, ← length, stored, List.take_length]

variable {t}

theorem indexed_get (named : orderedIndexKey ∉ t.map Prod.fst) {name : LuaString}
    (member : name ∈ genOrderedIndex t) : (indexed t).get name = t.get name := by
  have key := (ordered_index_perm t).mem_iff.mp member
  exact get_set_other fun same => named (same ▸ key)

theorem name_entry (distinct : (t.map Prod.fst).Nodup) {name : LuaString}
    (member : name ∈ genOrderedIndex t) : (name, t.get name) ∈ t := by
  obtain ⟨entry, inside, rfl⟩ := List.mem_map.mp ((ordered_index_perm t).mem_iff.mp member)
  rw [get_of_mem distinct inside]
  exact inside

theorem indexed_settled (defs : Definitions) (named : orderedIndexKey ∉ defs.table.map Prod.fst)
    (untyped : ∀ entry ∈ defs.table, ∀ items, entry.2.item 2 = .list items →
      entry.2.item 3 = .nil) :
    ∀ name ∈ genOrderedIndex defs.table,
      ∃ base, Settled tostring name ((indexed defs.table).get name) base := by
  intro name member
  have entry := name_entry defs.distinct member
  rw [indexed_get named member]
  exact well_formed_settled (defs.wellFormed _ entry) (untyped _ entry)

theorem indexed_well_formed (defs : Definitions)
    (named : orderedIndexKey ∉ defs.table.map Prod.fst) :
    ∀ name ∈ genOrderedIndex defs.table, WellFormed ((indexed defs.table).get name) := by
  intro name member
  rw [indexed_get named member]
  exact defs.wellFormed _ (name_entry defs.distinct member)

theorem indexed_validators (distinct : (t.map Prod.fst).Nodup)
    (named : orderedIndexKey ∉ t.map Prod.fst) :
    validators (indexed t) (genOrderedIndex t) =
      t.countP fun entry => entry.2.item 4 ≠ .nil := by
  rw [validators, (ordered_index_perm t).countP_eq, List.countP_map]
  apply List.countP_congr
  intro entry member
  have key : entry.1 ∈ genOrderedIndex t :=
    (ordered_index_perm t).mem_iff.mpr (List.mem_map_of_mem member)
  simp only [Function.comp_apply, indexed_get named key, get_of_mem distinct member]

theorem readable_of_read (defs : Definitions) (outcome : Outcome)
    (returned : readCmdlineOptions tostring slots (.table defs.table) = .ok (some outcome))
    (read : Read tostring defs.table outcome) : Readable slots defs.table := by
  rw [read_table defs.table defs.distinct] at returned
  obtain ⟨⟨args, left⟩, all, returned⟩ := ActionSystem.bind_ok _ _ _ returned
  have options : outcome.options = (indexed defs.table).remove orderedIndexKey := by
    cases copied : sbLuaSetTestArgs args args.length with
    | error e =>
        simp only [copied, Except.map] at returned
        cases returned
    | ok copies =>
        simp only [copied, Except.map] at returned
        cases returned
        rfl
  -- an option of that name is gone behind the loop
  have named : orderedIndexKey ∉ defs.table.map Prod.fst := by
    intro member
    obtain ⟨entry, inside, same⟩ := List.mem_map.mp member
    obtain ⟨values, array⟩ := (defs.wellFormed entry inside).array
    have gone := read.options entry.1
    rw [options, get_of_mem defs.distinct inside, array, same, get_remove] at gone
    cases gone
  have untyped : ∀ entry ∈ defs.table, ∀ items, entry.2.item 2 = .list items →
      entry.2.item 3 = .nil := by
    intro entry inside items list
    by_contra typed
    have key : entry.1 ∈ genOrderedIndex defs.table :=
      (ordered_index_perm defs.table).mem_iff.mpr (List.mem_map_of_mem inside)
    obtain ⟨slots, one, here⟩ := read_all_each all entry.1 key
    rw [indexed_get named key, get_of_mem defs.distinct inside,
      read_option_typed (defs.wellFormed entry inside) items list typed] at here
    cases here
  refine ⟨named, untyped, ?_⟩
  rw [← indexed_validators defs.distinct named]
  exact read_all_slots (indexed_settled defs named untyped) (indexed_well_formed defs named) all

theorem read_of_readable (defs : Definitions) (readable : Readable slots defs.table) :
    ∃ outcome, readCmdlineOptions tostring slots (.table defs.table) = .ok (some outcome) ∧
      Read tostring defs.table outcome := by
  have named := readable.named
  have enough := readable.slots
  rw [← indexed_validators defs.distinct named] at enough
  obtain ⟨args, left, all, describes⟩ := @read_all_some tostring _ _
    (indexed_settled defs named readable.untyped) (indexed_well_formed defs named) slots enough
  obtain ⟨copies, copied⟩ := copied_of_described describes
  have stored : sbLuaSetTestArgs args args.length = .ok (copies ++ [emptyArg]) := by
    rw [sbLuaSetTestArgs, List.take_length, copied]
    rfl
  refine ⟨{ options := (indexed defs.table).remove orderedIndexKey, passed := args
            copied := copies ++ [emptyArg] }, ?_, ?_, ⟨copies, copied, rfl⟩, ?_⟩
  · rw [read_table defs.table defs.distinct, all]
    simp only [Except.bind, stored, Except.map]
  · refine ⟨genOrderedIndex defs.table, ordered_index_perm _,
      ordered_index_pairwise _ defs.distinct, ?_⟩
    have members := (List.forall₂_and_left _ _).mpr ⟨fun name member => member, describes⟩
    apply members.imp
    rintro name arg ⟨member, described⟩
    rwa [indexed_get named member] at described
  · intro key
    rw [indexed, remove_set named]

/-- A well-formed table is read as it says, and left as it was, exactly when no option has
the name of the index, no list has a type, and the callback slots suffice. -/
theorem options_read_iff (tostring : UInt64 → LuaString) (slots : Nat) (defs : Definitions) :
    (∃ outcome, readCmdlineOptions tostring slots (.table defs.table) = .ok (some outcome) ∧
      Read tostring defs.table outcome) ↔ Readable slots defs.table :=
  ⟨fun ⟨outcome, returned, read⟩ => readable_of_read defs outcome returned read,
    read_of_readable defs⟩

/-- `list_opt = {"list description", {"foo", "bar"}, sysbench.cmdline.ARG_LIST}`. -/
def typedList : Entry :=
  .array [.string (lua "list description"), .list [lua "foo", lua "bar"], argNumber .list]

theorem typed_list_well_formed : WellFormed typedList where
  array := ⟨_, rfl⟩
  desc := ⟨_, rfl⟩
  default := fun _ function => nomatch function
  type := Or.inr ⟨.list, rfl⟩
  list := fun _ _ => Or.inr rfl
  validate := Or.inl rfl

theorem only_typed_list : ∀ entry ∈ [(lua "list_opt", typedList)], WellFormed entry.2 := by
  intro entry member
  rw [List.mem_singleton.mp member]
  exact typed_list_well_formed

def typedListTable : Definitions where
  table := [(lua "list_opt", typedList)]
  distinct := List.nodup_singleton _
  wellFormed := only_typed_list

/-- A list with its own type is refused. -/
theorem typed_list_refused : ¬ ∃ outcome,
    readCmdlineOptions (fun _ => lua "0") 896 (.table typedListTable.table) = .ok (some outcome) ∧
      Read (fun _ => lua "0") typedListTable.table outcome := by
  rintro ⟨outcome, returned, read⟩
  have readable := readable_of_read typedListTable outcome returned read
  exact absurd (readable.untyped _ List.mem_cons_self _ rfl) (by decide)
end Tables
end PteSysbench.CmdlineOptions
