import Mathlib.Data.List.Induction

/-!
String literals: inside the quotes a quote is written twice or behind an escape
character, and the escape character gives the one behind it a meaning. A text put
between quotes as it is reads back as itself when it is plain, and only then.
-/

namespace PteSysbench.QuotedText

variable {α : Type*} [DecidableEq α]

/-- `meaning c` is what the escape character denotes together with `c`. -/
structure Rule (α : Type*) where
  quote : α
  escape : α
  meaning : α → List α
  apart : quote ≠ escape
  denotes : ∀ c, meaning c ≠ []
  short : ∀ c, (meaning c).length ≤ 2

def prepend (text : List α) (read : List α × List α) : List α × List α := (text ++ read.1, read.2)

/-- From behind the opening quote: the value of the literal, and what follows it. -/
def scan (rule : Rule α) : List α → Option (List α × List α)
  | [] => none
  | [c] => if c = rule.quote then some ([], []) else none
  | c :: d :: rest =>
      if c = rule.quote then
        if d = rule.quote then (scan rule rest).map (prepend [rule.quote])
        else some ([], d :: rest)
      else if c = rule.escape then (scan rule rest).map (prepend (rule.meaning d))
      else (scan rule (d :: rest)).map (prepend [c])

/-- The value of a text that is one literal. -/
def literalValue (rule : Rule α) : List α → Option (List α)
  | [] => none
  | c :: rest =>
      if c = rule.quote then
        match scan rule rest with
        | some (value, []) => some value
        | _ => none
      else none

/-- The text between quotes, nothing in it escaped. -/
def enclosed (rule : Rule α) (text : List α) : List α := rule.quote :: text ++ [rule.quote]

/-- No quote, and every escape character stands for itself. -/
def plain (rule : Rule α) : List α → Bool
  | [] => true
  | [c] => c ≠ rule.quote && c ≠ rule.escape
  | c :: d :: rest =>
      c ≠ rule.quote &&
        if c = rule.escape then rule.meaning d = [rule.escape, d] && plain rule rest
        else plain rule (d :: rest)

section Reading
variable (rule : Rule α)

theorem scan_plain (text rest : List α) (simple : plain rule text) :
    scan rule (text ++ rest) = (scan rule rest).map (prepend text) := by
  -- on two characters at a time, for an escape and what it escapes
  induction text using List.twoStepInduction with
  | nil => exact Option.map_id'.symm
  | singleton c =>
      obtain ⟨notQuote, notEscape⟩ := Bool.and_eq_true_iff.mp simple
      have notQuote := of_decide_eq_true notQuote
      have notEscape := of_decide_eq_true notEscape
      cases rest with
      | nil => simp [scan, notQuote]
      | cons d rest => simp [scan, notQuote, notEscape]
  | cons_cons c d text ihRest ih =>
      obtain ⟨notQuote, simple⟩ := Bool.and_eq_true_iff.mp simple
      have notQuote := of_decide_eq_true notQuote
      simp only [List.cons_append, scan, if_neg notQuote]
      by_cases escape : c = rule.escape
      · rw [if_pos escape] at simple ⊢
        obtain ⟨itself, simple⟩ := Bool.and_eq_true_iff.mp simple
        rw [ihRest simple, Option.map_map, of_decide_eq_true itself, escape]
        rfl
      · rw [if_neg escape] at simple ⊢
        rw [← List.cons_append, ih d simple, Option.map_map]
        rfl

theorem plain_enclosed (text : List α) (simple : plain rule text) :
    literalValue rule (enclosed rule text) = some text := by
  simp [literalValue, enclosed, scan_plain rule text _ simple, scan, prepend]

/-- A literal that ends with the text denotes no more than stands between the quotes;
it denotes nothing only when nothing does, and the same only when that is plain. -/
theorem scan_end (text value : List α)
    (read : scan rule (text ++ [rule.quote]) = some (value, [])) :
    value.length ≤ text.length ∧ (text ≠ [] → value ≠ []) ∧ (value = text → plain rule text) := by
  induction text using List.twoStepInduction generalizing value with
  | nil =>
      obtain ⟨rfl, _⟩ := Prod.mk.inj (Option.some.inj ((if_pos rfl).symm.trans read))
      exact ⟨Nat.le_refl _, fun no => absurd rfl no, fun _ => rfl⟩
  | singleton c =>
      simp only [List.singleton_append, scan, if_true, Option.map_none] at read
      obtain ⟨notQuote, read⟩ := Option.ite_none_left_eq_some.mp read
      obtain ⟨notEscape, read⟩ := Option.ite_none_left_eq_some.mp read
      obtain ⟨rfl, _⟩ := Prod.mk.inj (Option.some.inj read)
      exact ⟨Nat.le_refl _, fun _ => List.cons_ne_nil _ _, fun _ => by simp [plain, notQuote,
        notEscape]⟩
  | cons_cons c d text ihRest ih =>
      simp only [List.cons_append, scan] at read
      by_cases isQuote : c = rule.quote
      · rw [if_pos isQuote] at read
        by_cases twice : d = rule.quote
        · rw [if_pos twice] at read
          obtain ⟨⟨value', rest⟩, inner, same⟩ := Option.map_eq_some_iff.mp read
          obtain ⟨rfl, rfl⟩ := Prod.mk.inj same
          obtain ⟨short, _⟩ := ihRest value' inner
          refine ⟨by simp; omega, by simp, fun same => ?_⟩
          have longer := congrArg List.length same
          simp at longer
          omega
        · rw [if_neg twice] at read
          cases read
      · rw [if_neg isQuote] at read
        by_cases isEscape : c = rule.escape
        · rw [if_pos isEscape] at read
          obtain ⟨⟨value', rest⟩, inner, same⟩ := Option.map_eq_some_iff.mp read
          obtain ⟨rfl, rfl⟩ := Prod.mk.inj same
          obtain ⟨short, _, itself⟩ := ihRest value' inner
          have two := rule.short d
          refine ⟨by simp; omega, fun _ => by simp [rule.denotes d], fun same => ?_⟩
          -- the meaning fills both places only when it is the escape itself
          have length := congrArg List.length same
          simp only [List.length_append, List.length_cons] at length
          have both : rule.meaning d = [c, d] ∧ value' = text :=
            List.append_inj same (by simp; omega)
          simp [plain, isEscape, rule.apart.symm, both.1, itself both.2]
        · rw [if_neg isEscape] at read
          obtain ⟨⟨value', rest⟩, inner, same⟩ := Option.map_eq_some_iff.mp read
          obtain ⟨rfl, rfl⟩ := Prod.mk.inj same
          obtain ⟨short, _, itself⟩ := ih d value' inner
          refine ⟨by simpa using short, by simp, fun same => ?_⟩
          simp [plain, isQuote, isEscape, itself (List.cons.inj same).2]

theorem literal_iff_scan (text value : List α) :
    literalValue rule (enclosed rule text) = some value ↔
      scan rule (text ++ [rule.quote]) = some (value, []) := by
  unfold literalValue enclosed
  simp only [List.cons_append, if_true]
  split
  · rename_i read same
    rw [same]
    simp
  · rename_i open_
    constructor
    · intro no
      cases no
    · intro read
      exact absurd read (open_ value)

/-- A text between quotes denotes itself exactly when it is plain. -/
theorem reads_back_iff (text : List α) :
    literalValue rule (enclosed rule text) = some text ↔ plain rule text := by
  constructor
  · intro read
    exact (scan_end rule text text ((literal_iff_scan rule text text).mp read)).2.2 rfl
  · exact plain_enclosed rule text

theorem value_length (text value : List α)
    (read : literalValue rule (enclosed rule text) = some value) : value.length ≤ text.length :=
  (scan_end rule text value ((literal_iff_scan rule text value).mp read)).1

/-- A longer text does not denote a plain beginning of it. -/
theorem longer_reads_more (text more : List α) (simple : plain rule text) (some_ : more ≠ []) :
    literalValue rule (enclosed rule (text ++ more)) ≠ some text := by
  intro read
  have scanned := (literal_iff_scan rule _ text).mp read
  rw [List.append_assoc, scan_plain rule text _ simple] at scanned
  obtain ⟨⟨value, rest⟩, inner, same⟩ := Option.map_eq_some_iff.mp scanned
  obtain ⟨whole, rfl⟩ := Prod.mk.inj same
  have denotes := (scan_end rule more value inner).2.1 some_
  exact denotes (List.append_right_eq_self.mp whole)
end Reading
end PteSysbench.QuotedText
