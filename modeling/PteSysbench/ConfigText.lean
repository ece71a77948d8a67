import PteSysbench.OptionRegistry
import PteSysbench.SeparatedItems

/-!
The two parsers of an option's values, `strtok` on the command line and the loop of
`read_config`, over texts without blanks and quotes, and the buffers that a line of a
configuration file is read in.
-/

namespace PteSysbench.ConfigText

open OptionRegistry SeparatedItems

def blank : CChar := ⟨32, by decide⟩
def newline : CChar := ⟨10, by decide⟩

/-- `name=v`, or `name = v` as `write_config` prints it. -/
def configLine (spaced : Bool) (name value : Text) : Text :=
  if spaced then name ++ [blank] ++ valueDelimiter :: ([blank] ++ value)
  else name ++ valueDelimiter :: value

/-- The last line of a file may end without a newline. -/
def lineContent (ended : Bool) (line : Text) : List UInt8 :=
  (line ++ if ended then [newline] else []).map Subtype.val

/-- What `fgets` fills from a file of this line. -/
def lineBuffers (ended : Bool) (line : Text) : List Text :=
  fgetsAll [] (maxStrLen - 1) (lineContent ended line)

/-- No blank, quote, comment or newline. -/
def Clean (value : Text) : Prop :=
  ∀ c ∈ value, isspace c = false ∧ c ≠ singleQuote ∧ c ≠ doubleQuote ∧ c ≠ commentChar

instance (value : Text) : Decidable (Clean value) := List.decidableBAll _ value

/-- The values that the text stands for on the command line. -/
def meantValues (type : ArgType) (value : Text) : List Text :=
  match type with
  | .bool =>
      if value = text "on" ∨ value = text "true" ∨ value = text "1" then [text "on"] else []
  | .list => (items valueSeparator value).filter (· ≠ [])
  | _ => if value = [] then [] else [value]

/-- The text that the last buffer naming the option gives it, without its blanks. -/
def assignedText (key : Text) : List Text → Option Text
  | [] => none
  | buf :: rest =>
      (assignedText key rest).or (match splitDelimiter buf with
        | none => none
        | some (name, value) =>
            if convertDashes name = key then some (value.filter fun c => !isspace c) else none)

/-! What the two parsers of values make of a text. -/
section Parsers

def Blanks (trail : Text) : Prop := ∀ c ∈ trail, isspace c = true

theorem read_blanks (lead rest : Text) (blanks : Blanks lead) :
    readValues .between (lead ++ rest) = readValues .between rest := by
  induction lead with
  | nil => rfl
  | cons c lead ih =>
      rw [List.cons_append, readValues, if_pos (blanks c List.mem_cons_self)]
      exact ih fun d member => blanks d (List.mem_cons_of_mem c member)

theorem read_bare (token item rest : Text) (clean : Clean item) (absent : valueSeparator ∉ item) :
    readValues (.bare token) (item ++ rest) = readValues (.bare (token ++ item)) rest := by
  induction item generalizing token with
  | nil => simp
  | cons c item ih =>
      obtain ⟨apart, absent⟩ := not_or.mp (List.mem_cons.not.mp absent)
      have unspaced := (clean c List.mem_cons_self).1
      rw [List.cons_append, readValues, if_neg (by simp [Ne.symm apart, unspaced]),
        ih _ (fun d member => clean d (List.mem_cons_of_mem c member)) absent]
      simp

/-- The first character of an item starts a value. -/
theorem read_start (c : CChar) (rest : Text) (clean : Clean [c]) (apart : c ≠ valueSeparator) :
    readValues .between (c :: rest) = readValues (.bare [c]) rest := by
  obtain ⟨unspaced, single, double, comment⟩ := clean c List.mem_cons_self
  simp [readValues, unspaced, single, double, comment, apart]

theorem read_item (item rest : Text) (clean : Clean item) (absent : valueSeparator ∉ item) :
    readValues .between (item ++ valueSeparator :: rest) =
      (item :: (readValues .between rest).1, (readValues .between rest).2) := by
  cases item with
  | nil => rfl
  | cons c item =>
      obtain ⟨apart, absent⟩ := not_or.mp (List.mem_cons.not.mp absent)
      rw [List.cons_append, read_start c _ (fun d member => clean d (by simp_all)) (Ne.symm apart),
        read_bare [c] item _ (fun d member => clean d (List.mem_cons_of_mem c member)) absent,
        readValues, if_pos (.inl rfl)]
      rfl

theorem read_last_item (item trail : Text) (clean : Clean item) (absent : valueSeparator ∉ item)
    (blanks : Blanks trail) :
    readValues .between (item ++ trail) = (if item = [] then [] else [item], true) := by
  have ended : ∀ rest, Blanks rest → readValues .between rest = ([], true) := by
    intro rest blanks
    have nothing := read_blanks rest [] blanks
    rwa [List.append_nil] at nothing
  cases item with
  | nil => exact ended trail blanks
  | cons c item =>
      obtain ⟨apart, absent⟩ := not_or.mp (List.mem_cons.not.mp absent)
      rw [List.cons_append, read_start c _ (fun d member => clean d (by simp_all)) (Ne.symm apart),
        read_bare [c] item _ (fun d member => clean d (List.mem_cons_of_mem c member)) absent]
      cases trail with
      | nil => rfl
      | cons d trail =>
          rw [readValues, if_pos (.inr (blanks d List.mem_cons_self)),
            ended trail fun e member => blanks e (List.mem_cons_of_mem d member)]
          rfl

/-- A line's value is cut at every separator, and only an empty item at its end is lost. -/
theorem read_clean (value trail : Text) (clean : Clean value) (blanks : Blanks trail) :
    readValues .between (value ++ trail) = (separated valueSeparator value, true) := by
  induction value using item_induction valueSeparator with
  | single item absent =>
      rw [read_last_item item trail clean absent blanks, separated_single absent]
  | more item rest absent ih =>
      have parts := List.forall_mem_append.mp clean
      rw [List.append_assoc, List.cons_append, read_item item _ parts.1 absent,
        ih fun c member => parts.2 c (List.mem_cons_of_mem _ member), separated_item absent]

theorem strtok_token (token item rest : Text) (absent : valueSeparator ∉ item) :
    strtok token (item ++ rest) = strtok (token ++ item) rest := by
  induction item generalizing token with
  | nil => simp
  | cons c item ih =>
      obtain ⟨apart, absent⟩ := not_or.mp (List.mem_cons.not.mp absent)
      rw [List.cons_append, strtok, if_neg (Ne.symm apart), ih _ absent]
      simp

/-- A list on the command line loses every empty item. -/
theorem strtok_items (value : Text) :
    strtok [] value = (items valueSeparator value).filter (· ≠ []) := by
  induction value using item_induction valueSeparator with
  | single item absent =>
      have scanned := strtok_token [] item [] absent
      rw [List.append_nil, List.nil_append] at scanned
      rw [scanned, items_single absent, strtok]
      by_cases empty : item = [] <;> simp [empty]
  | more item rest absent ih =>
      rw [strtok_token [] item _ absent, List.nil_append, strtok, if_pos rfl, ih, items_item absent]
      by_cases empty : item = [] <;> simp [empty]

theorem option_values_meant (type : ArgType) (value : Text)
    (taken : (optionValues type (some value)).isSome = true) (valued : type ≠ .file) :
    optionValues type (some value) = some (meantValues type value) := by
  by_cases empty : value = []
  · subst empty
    cases type <;> first | rfl | exact absurd rfl valued | skip
    revert taken
    decide
  · cases type with
    | bool =>
        revert taken
        simp only [optionValues, meantValues]
        split_ifs <;> simp_all
    | list => simp [optionValues, meantValues, empty, strtok_items]
    | null => simp [optionValues, empty] at taken
    | file => exact absurd rfl valued
    | int | size | double | string => simp [optionValues, meantValues, empty]

end Parsers

/-! The buffers of a line. -/
section Buffers

theorem c_string_text (content : Text) : cString (content.map Subtype.val) = content := by
  induction content with
  | nil => rfl
  | cons c rest ih =>
      rw [List.map_cons, cString, dif_neg c.property, ih]

theorem fgets_all_flatten (line bytes : Text) (room : Nat) :
    (fgetsAll (line.map Subtype.val) room (bytes.map Subtype.val)).flatten = line ++ bytes := by
  induction bytes generalizing line room with
  | nil =>
      rw [List.map_nil, fgetsAll]
      split
      · rename_i empty
        simp [List.map_eq_nil_iff.mp empty]
      · rw [c_string_text]
        simp
  | cons c rest ih =>
      have appended : line.map Subtype.val ++ [c.val] = (line ++ [c]).map Subtype.val := by simp
      have next := ih [] (maxStrLen - 1)
      rw [List.map_cons, fgetsAll, appended, c_string_text]
      split
      · rw [List.flatten_cons]
        rw [List.map_nil] at next
        rw [next]
        simp
      · rw [ih (line ++ [c]) (room - 1)]
        simp

theorem buffer_within (content buf : Text)
    (member : buf ∈ fgetsAll [] (maxStrLen - 1) (content.map Subtype.val)) : buf <:+: content := by
  obtain ⟨before, after, buffers⟩ := List.append_of_mem member
  have whole := fgets_all_flatten [] content (maxStrLen - 1)
  rw [List.map_nil, buffers] at whole
  exact ⟨before.flatten, after.flatten, by simpa using whole⟩

theorem split_delimiter_eq (buf name value : Text)
    (cut : splitDelimiter buf = some (name, value)) :
    valueDelimiter ∉ name ∧ buf = name ++ valueDelimiter :: value := by
  induction buf generalizing name with
  | nil => cases cut
  | cons c rest ih =>
      by_cases here : c = valueDelimiter
      · simp only [splitDelimiter, here, ↓reduceIte, Option.some.injEq, Prod.mk.injEq] at cut
        obtain ⟨rfl, rfl⟩ := cut
        simp [here]
      · rw [splitDelimiter, if_neg here] at cut
        obtain ⟨⟨before, after⟩, inner, same⟩ := Option.map_eq_some_iff.mp cut
        obtain ⟨rfl, rfl⟩ := Prod.mk.inj same
        obtain ⟨absent, rfl⟩ := ih before inner
        exact ⟨by simp [absent, Ne.symm here], rfl⟩

theorem split_delimiter_append (name value : Text) (absent : valueDelimiter ∉ name) :
    splitDelimiter (name ++ valueDelimiter :: value) = some (name, value) := by
  induction name with
  | nil => simp [splitDelimiter]
  | cons c name ih =>
      obtain ⟨apart, absent⟩ := not_or.mp (List.mem_cons.not.mp absent)
      simp [splitDelimiter, Ne.symm apart, ih absent]

/-- Nothing that a value must not have, apart from blanks around it. -/
def Padded (given : Text) : Prop :=
  ∃ lead value trail, given = lead ++ value ++ trail ∧ Blanks lead ∧ Clean value ∧ Blanks trail

theorem padded_infix {given inner : Text} (padded : Padded given) (within : inner <:+: given) :
    Padded inner := by
  obtain ⟨lead, value, trail, rfl, front, clean, back⟩ := padded
  obtain ⟨a, b, c, rfl, inLead, inValue, inTrail⟩ := infix_parts lead value trail within
  exact ⟨a, b, c, rfl, fun d member => front d (inLead member),
    fun d member => clean d (inValue member), fun d member => back d (inTrail member)⟩

theorem read_padded {given : Text} (padded : Padded given) : readValues .between given =
    (separated valueSeparator (given.filter fun c => !isspace c), true) := by
  obtain ⟨lead, value, trail, rfl, front, clean, back⟩ := padded
  have kept : value.filter (fun c => !isspace c) = value :=
    List.filter_eq_self.mpr fun c member => by simp [(clean c member).1]
  have dropped : ∀ blanks, Blanks blanks → blanks.filter (fun c => !isspace c) = [] :=
    fun blanks spaces => List.filter_eq_nil_iff.mpr fun c member => by simp [spaces c member]
  rw [List.append_assoc, read_blanks lead _ front, read_clean value trail clean back,
    List.filter_append, List.filter_append, kept, dropped lead front, dropped trail back]
  simp

theorem line_values_assigned (key : Text) (buffers : List Text)
    (padded : ∀ buf ∈ buffers, ∀ name value,
      splitDelimiter buf = some (name, value) → Padded value) :
    lineValues key buffers = (assignedText key buffers).map (separated valueSeparator) := by
  induction buffers with
  | nil => rfl
  | cons buf rest ih =>
      have others := ih fun other member => padded other (List.mem_cons_of_mem buf member)
      cases cut : splitDelimiter buf with
      | none => simp [lineValues, assignedText, cut, others]
      | some parts =>
          obtain ⟨name, value⟩ := parts
          have read := read_padded (padded buf List.mem_cons_self name value cut)
          by_cases same : convertDashes name = key <;>
            simp [lineValues, assignedText, cut, read, others, same]

/-- Where the first delimiter stands, everything that a buffer assigns lies behind it. -/
theorem buffers_padded (head tail : Text) (absent : valueDelimiter ∉ head) (padded : Padded tail) :
    ∀ buf ∈ fgetsAll [] (maxStrLen - 1) ((head ++ valueDelimiter :: tail).map Subtype.val),
      ∀ name value, splitDelimiter buf = some (name, value) → Padded value := by
  intro buf member name value cut
  obtain ⟨before, after, whole⟩ := buffer_within _ buf member
  obtain ⟨_, rfl⟩ := split_delimiter_eq buf name value cut
  have split : (before ++ name) ++ valueDelimiter :: (value ++ after) =
      head ++ valueDelimiter :: tail := by simpa using whole
  have behind : value ++ after <:+ tail := after_delimiter absent split
  exact padded_infix padded ((List.prefix_append value after).isInfix.trans behind.isInfix)

theorem convert_dashes_delimiter (name : Text) :
    valueDelimiter ∈ convertDashes name ↔ valueDelimiter ∈ name := by
  simp only [convertDashes, List.mem_map]
  constructor
  · rintro ⟨c, member, same⟩
    by_cases dashed : c = dash
    · rw [if_pos dashed] at same
      exact absurd same (by decide)
    · rw [if_neg dashed] at same
      exact same ▸ member
  · exact fun member => ⟨valueDelimiter, member, by decide⟩

/-- No line sets an option with a delimiter in its name. -/
theorem line_values_delimited (key : Text) (delimited : valueDelimiter ∈ key)
    (buffers : List Text) : lineValues key buffers = none := by
  induction buffers with
  | nil => rfl
  | cons buf rest ih =>
      cases cut : splitDelimiter buf with
      | none => simp [lineValues, cut, ih]
      | some parts =>
          obtain ⟨name, value⟩ := parts
          obtain ⟨absent, _⟩ := split_delimiter_eq buf name value cut
          have apart : convertDashes name ≠ key := by
            rintro rfl
            exact absent ((convert_dashes_delimiter name).mp delimited)
          cases complete : (readValues .between value).2 <;>
            simp [lineValues, cut, ih, apart, complete]

theorem optional_blanks (c : CChar) (space : isspace c = true) (present : Bool) :
    Blanks (if present then [c] else []) := by
  intro d member
  cases present with
  | false => cases member
  | true =>
      obtain rfl := List.mem_singleton.mp member
      exact space

theorem line_content_eq (spaced ended : Bool) (name value : Text) :
    ∃ head tail, lineContent ended (configLine spaced name value) =
        (head ++ valueDelimiter :: tail).map Subtype.val ∧
      (valueDelimiter ∈ head → valueDelimiter ∈ name) ∧ (Clean value → Padded tail) := by
  have front := optional_blanks blank (by decide) spaced
  have back := optional_blanks newline (by decide) ended
  refine ⟨name ++ if spaced then [blank] else [],
    (if spaced then [blank] else []) ++ value ++ if ended then [newline] else [], ?_, ?_, ?_⟩
  · cases spaced <;> simp [lineContent, configLine]
  · intro member
    rcases List.mem_append.mp member with inName | inPad
    · exact inName
    · have space := front _ inPad
      exact absurd space (by decide)
  · exact fun clean => ⟨_, value, _, rfl, front, clean, back⟩

end Buffers

/-! Lines of a usual length. -/
section ShortLines
variable {name value : Text}

theorem fgets_all_short (line bytes : Text) (ended : Bool) (room : Nat)
    (oneLine : newline ∉ bytes) (fits : bytes.length + 1 < room) (filled : line ++ bytes ≠ []) :
    fgetsAll (line.map Subtype.val) room (lineContent ended bytes) =
      [line ++ bytes ++ if ended then [newline] else []] := by
  -- on what is left of the line; `line` is what `fgets` has stored before it
  induction bytes generalizing line room with
  | nil =>
      rw [List.append_nil] at filled
      cases ended with
      | false =>
          have nothing : lineContent false [] = [] := rfl
          rw [nothing, fgetsAll, if_neg (List.map_eq_nil_iff.not.mpr filled), c_string_text]
          simp
      | true =>
          have appended : line.map Subtype.val ++ [newline.val] =
              (line ++ [newline]).map Subtype.val := by simp
          have last : lineContent true [] = [newline.val] := rfl
          rw [last, fgetsAll, if_pos (.inl rfl), appended, c_string_text, fgetsAll, if_pos rfl]
          simp
  | cons c rest ih =>
      obtain ⟨apart, oneLine⟩ := not_or.mp (List.mem_cons.not.mp oneLine)
      rw [List.length_cons] at fits
      have inside : ¬ (c.val = 10 ∨ room ≤ 1) := by
        rintro (ends | full)
        · exact apart (Subtype.ext ends.symm)
        · omega
      have appended : line.map Subtype.val ++ [c.val] = (line ++ [c]).map Subtype.val := by simp
      have more : lineContent ended (c :: rest) = c.val :: lineContent ended rest := rfl
      rw [more, fgetsAll, if_neg inside, appended,
        ih (line ++ [c]) (room - 1) oneLine (by omega) (by simp)]
      simp

theorem clean_kept (clean : Clean value) (ended : Bool) :
    (value ++ if ended then [newline] else []).filter (fun c => !isspace c) = value := by
  have kept : value.filter (fun c => !isspace c) = value :=
    List.filter_eq_self.mpr fun c member => by simp [(clean c member).1]
  have space : isspace newline = true := by decide
  cases ended <;> simp [List.filter_append, kept, space]

/-- A line that fits a buffer gives the option its value, or, with blanks around the
delimiter, gives it to another option. -/
theorem short_line_assigned (spaced ended : Bool) (clean : Clean value)
    (absent : valueDelimiter ∉ name) (oneLine : newline ∉ name)
    (fits : (configLine spaced name value).length + 1 < maxStrLen - 1) :
    assignedText (convertDashes name) (lineBuffers ended (configLine spaced name value)) =
      if spaced then none else some value := by
  have noNewline : newline ∉ value := fun member => absurd (clean newline member).1 (by decide)
  cases spaced with
  | false =>
      have buffer := fgets_all_short [] (configLine false name value) ended (maxStrLen - 1)
        (by simp [configLine, oneLine, noNewline, show newline ≠ valueDelimiter by decide]) fits
        (by simp [configLine])
      rw [List.map_nil, ← lineBuffers] at buffer
      rw [buffer]
      have cut := split_delimiter_append name (value ++ if ended then [newline] else []) absent
      simp [assignedText, configLine, cut, clean_kept clean]
  | true =>
      have buffer := fgets_all_short [] (configLine true name value) ended (maxStrLen - 1)
        (by simp [configLine, oneLine, noNewline, show newline ≠ valueDelimiter by decide,
          show newline ≠ blank by decide]) fits (by simp [configLine])
      rw [List.map_nil, ← lineBuffers] at buffer
      rw [buffer]
      have cut := split_delimiter_append (name ++ [blank])
        (blank :: (value ++ if ended then [newline] else []))
        (by simp [absent, show valueDelimiter ≠ blank by decide])
      -- the blank before the delimiter stays in the name
      have apart : convertDashes (name ++ [blank]) ≠ convertDashes name := by
        intro same
        have lengths := congrArg List.length same
        simp [convertDashes] at lengths
      rw [List.append_assoc, List.singleton_append] at cut
      simp [assignedText, configLine, cut, apart]

end ShortLines

end PteSysbench.ConfigText
