import PteSysbench.EmulatedStatements

/-!
The loops that put texts in the place of the question marks of a statement: the emulation of
both drivers and the named placeholders of `pgsql_drv_prepare`. All of them double an
`unsigned int buflen`, which comes out as 0 behind 2^31, and `realloc` gives no memory for 0
bytes. No value is printed as an empty text, so the place in the statement is never ahead of
`j`, and the counters of its characters and marks wrap no sooner.
-/

namespace PteSysbench.Placeholders

open ActionSystem ByteBuffer DbDriver EmulatedStatements

/-! The loops. -/
section Loops

/-- Why there is no text: an error is returned, the code reaches outside of the buffer or of
`bound_param`, or it goes on for ever. -/
inductive Failure where
  | noMemory
  | outside
  | endless

/-- The label `again`, up to the printing. -/
def ensureRoom (memory : Memory) (needRealloc : Bool) (b : Build) : Except Failure Build :=
  if b.buflen ≤ (b.j + 1) % 2 ^ 32 ∨ needRealloc then
    let buflen := if 0 < b.buflen then b.buflen * 2 % 2 ^ 32 else 256
    if 0 < buflen ∧ memory.allocates buflen then .ok { b with buflen := buflen }
    else .error .noMemory
  else .ok b

/-- `(int)(buflen - j)`. -/
def room (b : Build) : Int := Int.bmod (b.buflen - b.j) (2 ^ 32)

/-- `snprintf` into this room, which fails for a negative one, and `n`, which is -1 also where
the text was cut off. -/
def printText (text : List UInt8) (b : Build) : Except Failure (Build × Int) :=
  if room b ≤ 0 then .ok (b, -1)
  else if b.buflen < b.j + min (text.length + 1) (room b).toNat then .error .outside
  else .ok ({ b with buf := snprintf b.buf b.j (room b).toNat text },
    if text.length < room b then text.length else -1)

/-- A question mark. No text needs more attempts than `unsigned int` has bits. -/
def appendText (memory : Memory) (text : List UInt8) : Nat → Bool → Build → Except Failure Build
  | 0, _, _ => .error .endless
  | attempts + 1, needRealloc, b => do
      let roomy ← ensureRoom memory needRealloc b
      let printed ← printText text roomy
      if printed.2 < 0 then appendText memory text attempts true printed.1
      else .ok { printed.1 with j := (printed.1.j + printed.2.toNat) % 2 ^ 32 }

/-- Any other character. -/
def appendChar (memory : Memory) (c : UInt8) (needRealloc : Bool) (b : Build) :
    Except Failure Build := do
  let roomy ← ensureRoom memory needRealloc b
  if roomy.j < roomy.buflen then
    .ok { roomy with buf := roomy.buf.write roomy.j [c], j := (roomy.j + 1) % 2 ^ 32 }
  else .error .outside

/-- The loop over the statement; a mark without a text asks for one outside of `bound_param`. -/
def convert (memory : Memory) :
    List UInt8 → List (List UInt8) → Bool → Build → Except Failure Build
  | [], _, _, b => .ok b
  | c :: rest, texts, needRealloc, b =>
      if c = 63 then
        match texts with
        | [] => do
            let _ ← ensureRoom memory needRealloc b
            .error .outside
        | text :: texts => do
            let next ← appendText memory text 32 needRealloc b
            convert memory rest texts false next
      else do
        let next ← appendChar memory c needRealloc b
        convert memory rest texts false next

/-- The text, with the terminator behind it. -/
def conversion (memory : Memory) (query : List UInt8) (texts : List (List UInt8)) :
    Except Failure (List UInt8) := do
  let b ← convert memory query texts true ⟨allocated memory.garbage, 0, 0⟩
  if b.j < b.buflen then .ok ((b.buf.write b.j [0]).read 0 b.j) else .error .outside

/-- `mysql_drv_execute` with emulation. -/
def mysqlDrvExecute (memory : Memory) (format : FloatFormat) (query : CString)
    (boundParam : List DbBind) : Except Failure (List UInt8) :=
  conversion memory query.bytes (boundParam.map (shown format))

/-- `pgsql_drv_execute` with emulation. -/
def pgsqlDrvExecute (memory : Memory) (format : FloatFormat) (query : CString)
    (boundParam : List DbBind) : Except Failure (List UInt8) :=
  conversion memory query.bytes (boundParam.map (shown format))

/-- `"$%d"` for each question mark. -/
def numbers (marks : Nat) : List (List UInt8) :=
  (List.range marks).map fun k => 36 :: decimal (k + 1 : Nat)

/-- `pgsql_drv_prepare`. -/
def pgsqlDrvPrepare (memory : Memory) (query : CString) : Except Failure (List UInt8) :=
  conversion memory query.bytes (numbers (query.bytes.count 63))

end Loops

/-! What a conversion is to do, and when it can. -/
section Condition

/-- In every memory nothing is reached outside, and a text is the expected one; it is made
wherever memory can be allocated. -/
structure Correct (run : Memory → Except Failure (List UInt8)) (expected : List UInt8) :
    Prop where
  inside : ∀ memory, run memory ≠ .error .outside
  ends : ∀ memory, run memory ≠ .error .endless
  same : ∀ memory text, run memory = .ok text → text = expected
  made : ∀ memory, (∀ size, memory.allocates size) → run memory = .ok expected

/-- A text at `j` and a terminator behind it have room in 2^31 bytes; a text at the start of
the buffer gets 2^30 only, since the next size is a negative `int`. -/
def Placed (j : Nat) (text : List UInt8) : Prop :=
  j + 2 ≤ 2 ^ 31 ∧ if j = 0 then text.length < 2 ^ 30 else j + text.length < 2 ^ 31

/-- Every piece of the text from `j` on has its room. -/
def Fits : Nat → List UInt8 → List (List UInt8) → Prop
  | _, [], _ => True
  | j, c :: rest, texts =>
      if c = 63 then
        match texts with
        | [] => True
        | text :: texts => Placed j text ∧ Fits (j + text.length) rest texts
      else j + 2 ≤ 2 ^ 31 ∧ Fits (j + 1) rest texts

theorem fits_mark (j : Nat) (rest text : List UInt8) (texts : List (List UInt8)) :
    Fits j (63 :: rest) (text :: texts) ↔ Placed j text ∧ Fits (j + text.length) rest texts := by
  rw [Fits, if_pos rfl]

theorem fits_char (j : Nat) {c : UInt8} (rest : List UInt8) (texts : List (List UInt8))
    (other : c ≠ 63) :
    Fits j (c :: rest) texts ↔ j + 2 ≤ 2 ^ 31 ∧ Fits (j + 1) rest texts :=
  iff_of_eq (if_neg other)

structure Convertible (query : List UInt8) (texts : List (List UInt8)) : Prop where
  some_ : query ≠ []
  bound : query.count 63 ≤ texts.length
  fits : Fits 0 query texts

/-- Texts below a gigabyte fit. -/
theorem fits_of_length (query : List UInt8) (texts : List (List UInt8)) (j : Nat)
    (bound : query.count 63 ≤ texts.length)
    (short : j + (substituted query texts).length < 2 ^ 30) : Fits j query texts := by
  induction query generalizing texts j with
  | nil => trivial
  | cons c rest ih =>
      by_cases mark : c = 63
      · subst mark
        rw [List.count_cons_self] at bound
        cases texts with
        | nil => exact absurd bound (Nat.not_succ_le_zero _)
        | cons text texts =>
            simp only [substituted, if_true, List.length_append] at short
            rw [fits_mark]
            refine ⟨⟨by omega, ?_⟩, ih texts _ (Nat.le_of_succ_le_succ bound) (by omega)⟩
            split <;> omega
      · rw [List.count_cons_of_ne mark] at bound
        simp only [substituted, if_neg mark, List.length_cons] at short
        rw [fits_char _ _ _ mark]
        exact ⟨by omega, ih texts _ bound (by omega)⟩

end Condition

/-! Sizes are powers of two. -/
section Sizes
variable {b : Build}

def Size (n : Nat) : Prop := ∃ m, 8 ≤ m ∧ m ≤ 31 ∧ n = 2 ^ m

theorem size_bounds {n : Nat} (size : Size n) : 256 ≤ n ∧ n ≤ 2 ^ 31 := by
  obtain ⟨m, low, high, rfl⟩ := size
  have from_ : 2 ^ 8 ≤ 2 ^ m := Nat.pow_le_pow_right Nat.two_pos low
  exact ⟨from_, Nat.pow_le_pow_right Nat.two_pos high⟩

theorem size_double {n : Nat} (size : Size n) (small : n < 2 ^ 31) : Size (2 * n) := by
  obtain ⟨m, low, high, rfl⟩ := size
  have more : m < 31 := (Nat.pow_lt_pow_iff_right (by decide)).mp small
  exact ⟨m + 1, by omega, more, (Nat.pow_succ' ..).symm⟩

theorem size_half {n k : Nat} (size : Size n) (small : n < 2 ^ (k + 1)) : n ≤ 2 ^ k := by
  obtain ⟨m, low, high, rfl⟩ := size
  have more : m < k + 1 := (Nat.pow_lt_pow_iff_right (by decide)).mp small
  exact Nat.pow_le_pow_right (by decide) (Nat.le_of_lt_succ more)

/-- Nothing has been allocated, or there is room for the terminator. -/
def Loose (b : Build) : Prop := b.buflen = 0 ∧ b.j = 0 ∨ Size b.buflen ∧ b.j < b.buflen

/-- How the buffer is left for the next character. -/
structure Enlarged (needRealloc : Bool) (b next : Build) : Prop where
  buf : next.buf = b.buf
  j : next.j = b.j
  size : Size next.buflen
  room : b.j + 1 < next.buflen
  grown : next.buflen = b.buflen ∧ needRealloc = false ∨ b.buflen = 0 ∧ next.buflen = 256 ∨
    next.buflen = 2 * b.buflen ∧ (b.buflen ≤ b.j + 1 ∨ needRealloc = true)

theorem ensure_room_cases (memory : Memory) (needRealloc : Bool) (loose : Loose b) :
    (∃ next, ensureRoom memory needRealloc b = .ok next ∧ Enlarged needRealloc b next) ∨
      ensureRoom memory needRealloc b = .error .noMemory ∧
        ((∀ size, memory.allocates size) →
          b.buflen = 2 ^ 31 ∧ (needRealloc = true ∨ 2 ^ 31 ≤ b.j + 1)) := by
  have small : (b.j + 1) % 2 ^ 32 = b.j + 1 := by
    refine Nat.mod_eq_of_lt ?_
    rcases loose with ⟨_, start⟩ | ⟨size, inside⟩
    · rw [start]
      decide
    · have := (size_bounds size).2
      omega
  unfold ensureRoom
  rw [small]
  by_cases short : b.buflen ≤ b.j + 1 ∨ needRealloc = true
  · rw [if_pos short]
    rcases loose with ⟨none_, start⟩ | ⟨size, inside⟩
    · simp only [none_, Nat.lt_irrefl, if_false]
      by_cases allocated_ : memory.allocates 256 = true
      · rw [if_pos ⟨by decide, allocated_⟩]
        exact Or.inl ⟨_, rfl, rfl, rfl, ⟨8, by decide, by decide, rfl⟩, by simp [start],
          Or.inr (Or.inl ⟨none_, rfl⟩)⟩
      · rw [if_neg fun both => allocated_ both.2]
        exact Or.inr ⟨rfl, fun all => absurd (all 256) allocated_⟩
    · obtain ⟨low, high⟩ := size_bounds size
      simp only [show 0 < b.buflen by omega, if_true]
      by_cases last : b.buflen = 2 ^ 31
      · rw [if_neg fun both => absurd both.1 (by simp [last])]
        exact Or.inr ⟨rfl, fun _ => ⟨last, short.symm.imp_right (last ▸ ·)⟩⟩
      · have double := size_double size (Nat.lt_of_le_of_ne high last)
        have next := (size_bounds double).2
        rw [Nat.mul_comm, Nat.mod_eq_of_lt (by omega)]
        by_cases allocated_ : memory.allocates (2 * b.buflen) = true
        · rw [if_pos ⟨by omega, allocated_⟩]
          exact Or.inl ⟨_, rfl, rfl, rfl, double, by simp only; omega,
            Or.inr (Or.inr ⟨rfl, short⟩)⟩
        · rw [if_neg fun both => allocated_ both.2]
          exact Or.inr ⟨rfl, fun all => absurd (all _) allocated_⟩
  · rw [if_neg short]
    obtain ⟨long, notNeeded⟩ := not_or.mp short
    rcases loose with ⟨none_, _⟩ | ⟨size, inside⟩
    · exact absurd (none_ ▸ Nat.zero_le _) long
    · exact Or.inl ⟨b, rfl, rfl, rfl, size, Nat.lt_of_not_le long,
        Or.inl ⟨rfl, Bool.eq_false_of_not_eq_true notNeeded⟩⟩

end Sizes

/-! Pieces of the text. -/
section Pieces
variable {needRealloc : Bool} {b : Build} {text : List UInt8}

/-- The buffer behind a piece. -/
structure Appended (b next : Build) (text : List UInt8) : Prop where
  j : next.j = b.j + text.length
  size : Size next.buflen
  room : next.j < next.buflen
  early : next.j = 0 → next.buflen ≤ 2 ^ 30
  text : next.buf.read 0 next.j = b.buf.read 0 b.j ++ text

/-- The text has room, and the room is a positive `int`. -/
def Roomy (b : Build) (text : List UInt8) : Prop :=
  b.j + text.length < b.buflen ∧ (b.j = 0 → b.buflen ≤ 2 ^ 30)

theorem room_cases (size : Size b.buflen) (inside : b.j + 1 < b.buflen) :
    (b.j = 0 → b.buflen ≤ 2 ^ 30) ∧ room b = (b.buflen - b.j : Nat) ∨
      b.j = 0 ∧ b.buflen = 2 ^ 31 ∧ room b < 0 := by
  have high := (size_bounds size).2
  unfold room
  by_cases whole : b.j = 0 ∧ b.buflen = 2 ^ 31
  · obtain ⟨start, last⟩ := whole
    refine Or.inr ⟨start, last, ?_⟩
    rw [start, last]
    decide
  · refine Or.inl ⟨fun start => ?_, ?_⟩
    · exact size_half size (by omega)
    · rw [← Int.ofNat_sub (by omega)]
      exact Int.bmod_eq_of_le_mul_two (by omega) (by omega)

/-- Both outcomes of the printing. -/
theorem print_cases (text : List UInt8) (size : Size b.buflen) (inside : b.j + 1 < b.buflen) :
    (Roomy b text ∧ printText text b =
      .ok ({ b with buf := snprintf b.buf b.j (b.buflen - b.j) text }, (text.length : Int))) ∨
    (¬ Roomy b text ∧ ∃ buf, printText text b = .ok ({ b with buf := buf }, -1) ∧
      buf.read 0 b.j = b.buf.read 0 b.j) := by
  unfold printText
  rcases room_cases size inside with ⟨early, same⟩ | ⟨start, last, negative⟩
  · rw [same, if_neg (by omega), Int.toNat_natCast, if_neg (by omega)]
    by_cases fits : text.length < b.buflen - b.j
    · rw [if_pos (Int.ofNat_lt.mpr fits)]
      exact Or.inl ⟨⟨by omega, early⟩, rfl⟩
    · rw [if_neg fun less => fits (Int.ofNat_lt.mp less)]
      exact Or.inr ⟨fun roomy => fits (by have := roomy.1; omega), _, rfl,
        snprintf_before _ _ _ _⟩
  · rw [if_pos (by omega)]
    refine Or.inr ⟨fun roomy => ?_, b.buf, rfl, rfl⟩
    have := roomy.2 start
    omega

theorem append_char_cases (memory : Memory) (c : UInt8) (loose : Loose b)
    (fresh : needRealloc = true → b.buflen = 0) :
    (∃ next, appendChar memory c needRealloc b = .ok next ∧ Appended b next [c] ∧
      b.j + 2 ≤ 2 ^ 31) ∨
    appendChar memory c needRealloc b = .error .noMemory ∧
      ((∀ size, memory.allocates size) → ¬ b.j + 2 ≤ 2 ^ 31) := by
  unfold appendChar
  rcases ensure_room_cases memory needRealloc loose with
    ⟨roomy, ensured, enlarged⟩ | ⟨ensured, plenty⟩
  · have high := (size_bounds enlarged.size).2
    have inside := enlarged.room
    have sameJ := enlarged.j
    rw [ensured]
    refine Or.inl ⟨_, if_pos (by omega), ⟨?_, enlarged.size, ?_, ?_, ?_⟩, by omega⟩
    · simp only [List.length_singleton]
      rw [Nat.mod_eq_of_lt (by omega), sameJ]
    · simp only
      rw [Nat.mod_eq_of_lt (by omega)]
      omega
    · simp only
      rw [Nat.mod_eq_of_lt (by omega)]
      omega
    · simp only
      have before := read_write_outside roomy.buf roomy.j 0 roomy.j [c] (Or.inl (by omega))
      have here := read_write_same roomy.buf roomy.j [c]
      rw [List.length_singleton] at here
      rw [Nat.mod_eq_of_lt (by omega), read_add, before, Nat.zero_add, here, enlarged.buf, sameJ]
  · rw [ensured]
    refine Or.inr ⟨rfl, fun all => ?_⟩
    obtain ⟨last, needed | far⟩ := plenty all
    · rw [fresh needed] at last
      omega
    · omega

/-- Behind a printing that failed, the buffer was too short or no buffer is large enough. -/
theorem not_roomy {next : Build} (enlarged : Enlarged needRealloc b next)
    (tight : needRealloc = true → b.buflen ≤ b.j + text.length ∨ ¬ Placed b.j text)
    (early : needRealloc = false → b.j = 0 → b.buflen ≤ 2 ^ 30) (crowded : ¬ Roomy next text) :
    next.buflen ≤ next.j + text.length ∨ ¬ Placed next.j text := by
  have sameJ := enlarged.j
  by_cases fits : next.j + text.length < next.buflen
  · refine Or.inr fun placed => crowded ⟨fits, fun start => ?_⟩
    have short := placed.2
    rw [if_pos start] at short
    rcases enlarged.grown with ⟨same, calm⟩ | ⟨_, first⟩ | ⟨double, long | needed⟩
    · rw [same]
      exact early calm (sameJ ▸ start)
    · omega
    · omega
    · rcases tight needed with before | never
      · exact size_half enlarged.size (by omega)
      · exact absurd (sameJ ▸ placed) never
  · exact Or.inl (Nat.le_of_not_lt fits)

/-- A new allocation takes the place of an attempt. -/
theorem attempts_left {next : Build} (attempts : Nat) (enlarged : Enlarged needRealloc b next)
    (enough : (if needRealloc then 2 ^ 32 else 2 ^ 33) ≤
      max b.buflen 128 * 2 ^ (attempts + 1)) :
    2 ^ 32 ≤ max next.buflen 128 * 2 ^ attempts := by
  have succ : 2 ^ (attempts + 1) = 2 * 2 ^ attempts := Nat.pow_succ'
  rw [succ, Nat.mul_left_comm] at enough
  have low := (size_bounds enlarged.size).1
  cases needRealloc with
  | true =>
      have double : 2 * max b.buflen 128 ≤ max next.buflen 128 := by
        rcases enlarged.grown with ⟨_, calm⟩ | ⟨none_, first⟩ | ⟨double, _⟩
        · cases calm
        · omega
        · omega
      have more := Nat.mul_le_mul_right (2 ^ attempts) double
      rw [Nat.mul_assoc] at more
      exact enough.trans more
  | false =>
      have longer : max b.buflen 128 ≤ max next.buflen 128 := by
        rcases enlarged.grown with ⟨same, _⟩ | ⟨none_, first⟩ | ⟨double, _⟩
        all_goals omega
      have more := Nat.mul_le_mul_right (2 ^ attempts) longer
      rw [if_neg Bool.false_ne_true] at enough
      omega

theorem printed_appended {next : Build} (enlarged : Enlarged needRealloc b next)
    (roomy : Roomy next text) :
    Appended b
        { next with
          buf := snprintf next.buf next.j (next.buflen - next.j) text
          j := next.j + text.length } text ∧
      Placed b.j text := by
  obtain ⟨fits, early⟩ := roomy
  have sameJ := enlarged.j
  have inside := enlarged.room
  have high := (size_bounds enlarged.size).2
  refine ⟨⟨by simp only [sameJ], enlarged.size, fits,
    fun start => early (Nat.eq_zero_of_add_eq_zero_right start), ?_⟩, by omega, ?_⟩
  · simp only
    rw [snprintf_appends _ _ _ _ (by omega), enlarged.buf, sameJ]
  · split <;> omega

/-- The largest buffer cannot be enlarged, and the text does not fit in it. -/
theorem not_placed (last : b.buflen = 2 ^ 31)
    (tight : needRealloc = true → b.buflen ≤ b.j + text.length ∨ ¬ Placed b.j text)
    (stuck : needRealloc = true ∨ 2 ^ 31 ≤ b.j + 1) : ¬ Placed b.j text := by
  intro placed
  obtain ⟨low, high⟩ := placed
  rcases stuck with needed | far
  · rcases tight needed with short | never
    · split at high <;> omega
    · exact never ⟨low, high⟩
  · omega

theorem appended_from {before next : Build} (appended : Appended before next text)
    (sameJ : before.j = b.j) (kept : before.buf.read 0 before.j = b.buf.read 0 b.j) :
    Appended b next text :=
  ⟨sameJ ▸ appended.j, appended.size, appended.room, appended.early, kept ▸ appended.text⟩

/-- Every attempt with a new allocation doubles the buffer, so it ends before `buflen` does. -/
theorem append_text_cases (memory : Memory) (text : List UInt8) (attempts : Nat) (loose : Loose b)
    (enough : (if needRealloc then 2 ^ 32 else 2 ^ 33) ≤ max b.buflen 128 * 2 ^ attempts)
    (tight : needRealloc = true → b.buflen ≤ b.j + text.length ∨ ¬ Placed b.j text)
    (early : needRealloc = false → b.j = 0 → b.buflen ≤ 2 ^ 30) :
    (∃ next, appendText memory text attempts needRealloc b = .ok next ∧ Appended b next text ∧
      Placed b.j text) ∨
    appendText memory text attempts needRealloc b = .error .noMemory ∧
      ((∀ size, memory.allocates size) → ¬ Placed b.j text) := by
  -- each attempt doubles the buffer, so that the last one comes at 2^31
  induction attempts generalizing needRealloc b with
  | zero =>
      have high : b.buflen ≤ 2 ^ 31 := by
        rcases loose with ⟨none_, _⟩ | ⟨size, _⟩
        · omega
        · exact (size_bounds size).2
      split at enough <;> omega
  | succ attempts ih =>
      unfold appendText
      rcases ensure_room_cases memory needRealloc loose with
        ⟨roomy, ensured, enlarged⟩ | ⟨ensured, plenty⟩
      · have high := (size_bounds enlarged.size).2
        have inside := enlarged.room
        have sameJ := enlarged.j
        rw [ensured]
        rcases print_cases text enlarged.size (sameJ.symm ▸ inside) with
          ⟨fits, printed⟩ | ⟨crowded, buf, printed, kept⟩
        · have small : roomy.j + text.length < 2 ^ 32 := by
            have := fits.1
            omega
          refine Or.inl ⟨_, ?_, printed_appended enlarged fits⟩
          simp only [bind, Except.bind, printed]
          rw [if_neg (by omega), Int.toNat_natCast, Nat.mod_eq_of_lt small]
        · simp only [bind, Except.bind, printed]
          rw [if_pos (by omega)]
          have left_ := attempts_left attempts enlarged enough
          have tighter := not_roomy enlarged tight early crowded
          have loose : Loose ⟨buf, roomy.buflen, roomy.j⟩ :=
            Or.inr ⟨enlarged.size, by simp only; omega⟩
          rcases @ih true ⟨buf, roomy.buflen, roomy.j⟩ loose left_ (fun _ => tighter)
              (fun calm => by cases calm) with
            ⟨next, done, appended, placed⟩ | ⟨failed, plenty⟩
          · refine Or.inl ⟨next, done, appended_from appended sameJ ?_, sameJ ▸ placed⟩
            simp only
            rw [kept, enlarged.buf, sameJ]
          · exact Or.inr ⟨failed, sameJ ▸ plenty⟩
      · rw [ensured]
        refine Or.inr ⟨rfl, fun all => ?_⟩
        obtain ⟨last, stuck⟩ := plenty all
        exact not_placed last tight stuck

end Pieces

/-! The whole text. -/
section Texts
variable {b : Build}

/-- Where the loop over a statement ends, and what it went through. -/
structure Converted (query : List UInt8) (texts : List (List UInt8)) (b t : Build) : Prop where
  loose : Loose t
  some_ : t.buflen = 0 → query = [] ∧ b.buflen = 0
  text : t.buf.read 0 t.j = b.buf.read 0 b.j ++ substituted query texts
  bound : query.count 63 ≤ texts.length
  fits : Fits b.j query texts

/-- A buffer, or an error for want of memory or of a text. -/
def Outcome (memory : Memory) (query : List UInt8) (texts : List (List UInt8)) (b : Build)
    (result : Except Failure Build) : Prop :=
  (∃ t, result = .ok t ∧ Converted query texts b t) ∨
  (result = .error .noMemory ∧
    ((∀ size, memory.allocates size) → Fits b.j query texts →
      texts.length < query.count 63)) ∨
  (result = .error .outside ∧ texts.length < query.count 63)

/-- What follows on a piece. -/
theorem outcome_cons {memory : Memory} {c : UInt8} {query piece : List UInt8}
    {rest texts : List (List UInt8)} {next : Build} {result : Except Failure Build}
    (appended : Appended b next piece)
    (text : substituted (c :: query) texts = piece ++ substituted query rest)
    (bound : texts.length < (c :: query).count 63 ↔ rest.length < query.count 63)
    (fits : Fits b.j (c :: query) texts ↔ Fits next.j query rest)
    (outcome : Outcome memory query rest next result) :
    Outcome memory (c :: query) texts b result := by
  rcases outcome with ⟨t, done, converted⟩ | ⟨failed, plenty⟩ | ⟨failed, few⟩
  · refine Or.inl ⟨t, done, converted.loose, fun none_ => ?_, ?_, ?_, fits.mpr converted.fits⟩
    · have := (size_bounds appended.size).1
      have := (converted.some_ none_).2
      omega
    · rw [converted.text, appended.text, text, List.append_assoc]
    · exact Nat.le_of_not_lt fun few => Nat.not_lt.mpr converted.bound (bound.mp few)
  · exact Or.inr (Or.inl ⟨failed, fun all fitting => bound.mpr (plenty all (fits.mp fitting))⟩)
  · exact Or.inr (Or.inr ⟨failed, bound.mpr few⟩)

/-- A question mark, before the rest of the statement. -/
theorem mark_outcome (memory : Memory) (rest : List UInt8) (texts : List (List UInt8))
    (needRealloc : Bool) (loose : Loose b) (fresh : needRealloc = true → b.buflen = 0)
    (early : b.j = 0 → b.buflen ≤ 2 ^ 30)
    (continued : ∀ next piece, Appended b next piece → ∀ texts,
      Outcome memory rest texts next (convert memory rest texts false next)) :
    Outcome memory (63 :: rest) texts b (convert memory (63 :: rest) texts needRealloc b) := by
  unfold convert
  rw [if_pos rfl]
  cases texts with
  | nil =>
      have few : 0 < (63 :: rest).count 63 := List.count_pos_iff.mpr List.mem_cons_self
      rcases ensure_room_cases memory needRealloc loose with ⟨roomy, ensured, _⟩ | ⟨ensured, _⟩
      · exact Or.inr (Or.inr ⟨by simp only [ensured]; rfl, few⟩)
      · exact Or.inr (Or.inl ⟨by simp only [ensured]; rfl, fun _ _ => few⟩)
  | cons text texts =>
      have enough : (if needRealloc then 2 ^ 32 else 2 ^ 33) ≤ max b.buflen 128 * 2 ^ 32 := by
        split <;> omega
      rcases append_text_cases memory text 32 loose enough
          (fun needed => Or.inl (fresh needed ▸ Nat.zero_le _)) (fun _ => early) with
        ⟨next, done, appended, placed⟩ | ⟨failed, plenty⟩
      · simp only [done]
        refine outcome_cons appended (if_pos rfl) ?_ ?_ (continued next text appended texts)
        · rw [List.count_cons_self, List.length_cons, Nat.succ_lt_succ_iff]
        · rw [fits_mark, appended.j]
          exact and_iff_right placed
      · refine Or.inr (Or.inl ⟨by simp only [failed]; rfl, fun all fits => ?_⟩)
        exact absurd ((fits_mark ..).mp fits).1 (plenty all)

theorem char_outcome (memory : Memory) {c : UInt8} (rest : List UInt8)
    (texts : List (List UInt8)) (needRealloc : Bool) (other : c ≠ 63) (loose : Loose b)
    (fresh : needRealloc = true → b.buflen = 0)
    (continued : ∀ next piece, Appended b next piece → ∀ texts,
      Outcome memory rest texts next (convert memory rest texts false next)) :
    Outcome memory (c :: rest) texts b (convert memory (c :: rest) texts needRealloc b) := by
  unfold convert
  rw [if_neg other]
  rcases append_char_cases memory c loose fresh with
    ⟨next, done, appended, placed⟩ | ⟨failed, plenty⟩
  · simp only [done]
    refine outcome_cons appended (if_neg other) ?_ ?_ (continued next [c] appended texts)
    · rw [List.count_cons_of_ne other]
    · rw [fits_char _ _ _ other, appended.j]
      exact and_iff_right placed
  · refine Or.inr (Or.inl ⟨by simp only [failed]; rfl, fun all fits => ?_⟩)
    exact absurd ((fits_char _ _ _ other).mp fits).1 (plenty all)

theorem convert_outcome (memory : Memory) (query : List UInt8) (texts : List (List UInt8))
    (needRealloc : Bool) (loose : Loose b) (fresh : needRealloc = true → b.buflen = 0)
    (early : b.j = 0 → b.buflen ≤ 2 ^ 30) :
    Outcome memory query texts b (convert memory query texts needRealloc b) := by
  induction query generalizing texts needRealloc b with
  | nil =>
      exact Or.inl ⟨b, rfl, loose, fun none_ => ⟨rfl, none_⟩, (List.append_nil _).symm,
        Nat.zero_le _, trivial⟩
  | cons c rest ih =>
      have continued (next : Build) (piece : List UInt8) (appended : Appended b next piece)
          (texts : List (List UInt8)) :
          Outcome memory rest texts next (convert memory rest texts false next) :=
        ih texts false (Or.inr ⟨appended.size, appended.room⟩) (fun calm => by cases calm)
          appended.early
      by_cases mark : c = 63
      · subst mark
        exact mark_outcome memory rest texts needRealloc loose fresh early continued
      · exact char_outcome memory rest texts needRealloc mark loose fresh continued

end Texts

/-! Conversions. -/
section Conversions
variable (query : List UInt8) (texts : List (List UInt8))

theorem convert_start (memory : Memory) :
    Outcome memory query texts ⟨allocated memory.garbage, 0, 0⟩
      (convert memory query texts true ⟨allocated memory.garbage, 0, 0⟩) :=
  convert_outcome memory query texts true (Or.inl ⟨rfl, rfl⟩) (fun _ => rfl)
    (fun _ => Nat.zero_le _)

/-- Every end of a conversion. -/
theorem conversion_cases (memory : Memory) :
    (conversion memory query texts = .ok (substituted query texts) ∧ Convertible query texts) ∨
    (conversion memory query texts = .error .noMemory ∧
      ((∀ size, memory.allocates size) → ¬ Convertible query texts)) ∨
    (conversion memory query texts = .error .outside ∧ ¬ Convertible query texts) := by
  unfold conversion
  rcases convert_start query texts memory with
    ⟨t, done, converted⟩ | ⟨failed, plenty⟩ | ⟨failed, few⟩
  · simp only [done, bind, Except.bind]
    by_cases some_ : query = []
    · -- nothing has been allocated for the terminator
      subst some_
      obtain rfl := Except.ok.inj done
      exact Or.inr (Or.inr ⟨rfl, fun convertible => convertible.some_ rfl⟩)
    · rcases converted.loose with ⟨none_, _⟩ | ⟨_, inside⟩
      · exact absurd (converted.some_ none_).1 some_
      · refine Or.inl ⟨?_, some_, converted.bound, converted.fits⟩
        rw [if_pos inside, read_write_outside _ _ _ _ _ (Or.inl (by omega)), converted.text]
        rfl
  · refine Or.inr (Or.inl ⟨by simp only [failed]; rfl, fun all convertible => ?_⟩)
    exact Nat.not_lt.mpr convertible.bound (plenty all convertible.fits)
  · exact Or.inr (Or.inr ⟨by simp only [failed]; rfl,
      fun convertible => Nat.not_lt.mpr convertible.bound few⟩)

theorem conversion_correct_iff :
    Correct (fun memory => conversion memory query texts) (substituted query texts) ↔
      Convertible query texts := by
  constructor
  · intro correct
    rcases conversion_cases query texts (roomyMemory []) with
      ⟨_, convertible⟩ | ⟨failed, _⟩ | ⟨failed, _⟩
    · exact convertible
    · have made := correct.made (roomyMemory []) fun _ => rfl
      cases failed.symm.trans made
    · exact absurd failed (correct.inside _)
  · intro convertible
    refine ⟨fun memory out => ?_, fun memory endless => ?_, fun memory text done => ?_,
      fun memory all => ?_⟩
    all_goals rcases conversion_cases query texts memory with
      ⟨sent, _⟩ | ⟨failed, plenty⟩ | ⟨_, never⟩
    · cases out.symm.trans sent
    · cases out.symm.trans failed
    · exact never convertible
    · cases endless.symm.trans sent
    · cases endless.symm.trans failed
    · exact never convertible
    · exact Except.ok.inj (done.symm.trans sent)
    · cases done.symm.trans failed
    · exact absurd convertible never
    · exact sent
    · exact absurd convertible (plenty all)
    · exact absurd convertible never

theorem numbers_length (marks : Nat) : (numbers marks).length = marks := by simp [numbers]

/-- With memory enough, `buflen` of any size would make the same text. -/
theorem execute_unbounded (memory : Memory) (all : ∀ size, memory.allocates size)
    (format : FloatFormat) (query : CString) (boundParam : List DbBind)
    (convertible : Convertible query.bytes (boundParam.map (shown format))) :
    (mysqlDrvExecute memory format query boundParam).toOption =
      EmulatedStatements.mysqlDrvExecute format memory query boundParam := by
  have bound := convertible.bound
  rw [List.length_map] at bound
  rw [execute_sends format memory all query boundParam convertible.some_ bound]
  exact congrArg Except.toOption (((conversion_correct_iff _ _).mpr convertible).made memory all)

/-- The three conversions are correct for the statements that are not empty, have a parameter
for each of their marks and leave each piece its room. -/
theorem conversions_correct_iff (format : FloatFormat) (query : CString)
    (boundParam : List DbBind) :
    let shown := boundParam.map (shown format)
    let numbers := numbers (query.bytes.count 63)
    (Correct (mysqlDrvExecute · format query boundParam) (substituted query.bytes shown) ↔
      Convertible query.bytes shown) ∧
    (Correct (pgsqlDrvExecute · format query boundParam) (substituted query.bytes shown) ↔
      Convertible query.bytes shown) ∧
    (Correct (pgsqlDrvPrepare · query) (substituted query.bytes numbers) ↔
      query.bytes ≠ [] ∧ Fits 0 query.bytes numbers) := by
  refine ⟨conversion_correct_iff _ _, conversion_correct_iff _ _,
    (conversion_correct_iff _ _).trans ⟨fun able => ⟨able.some_, able.fits⟩, ?_⟩⟩
  rintro ⟨some_, fits⟩
  exact ⟨some_, (numbers_length _).ge, fits⟩

def emptyQuery : CString := ⟨[], List.not_mem_nil, Nat.two_pow_pos 63⟩

/-- A statement without characters has no buffer for its terminator, and a mark without a
parameter reads one behind `bound_param`. -/
theorem unguarded_ends :
    ¬ Correct (mysqlDrvExecute · markFormat emptyQuery []) [] ∧
    ¬ Correct (pgsqlDrvExecute · markFormat emptyQuery []) [] ∧
    ¬ Correct (pgsqlDrvPrepare · emptyQuery) [] ∧
    mysqlDrvExecute (roomyMemory []) markFormat markQuery [] = .error .outside ∧
    pgsqlDrvExecute (roomyMemory []) markFormat markQuery [] = .error .outside := by
  refine ⟨fun correct => ?_, fun correct => ?_, fun correct => ?_, rfl, rfl⟩
  · exact correct.inside (roomyMemory []) rfl
  · exact correct.inside (roomyMemory []) rfl
  · exact correct.inside (roomyMemory []) rfl

end Conversions

end PteSysbench.Placeholders
