import PteSysbench.EmulatedStatements
import PteSysbench.SbRand

/-!
String parameters of sysbench.sql.lua byte by byte. `sql_param.set` copies no more than
`max_len` bytes, but `sb_rand_str` knows only the format: it writes up to the terminator of
the format, wherever the buffer ends. A Lua string is shorter than 2^31 bytes, so the index
`unsigned int i` does not wrap.
-/

namespace PteSysbench.ParamWrites

open ByteBuffer DbDriver DoubleRounding EmulatedStatements SbRand

/-! The calls. -/
section Calls

/-- A parameter of CHAR or VARCHAR. `memory` starts at `buffer`, goes on behind its `max_len`
bytes and remembers what the last call has written. -/
structure StringParam where
  maxLen : Nat
  memory : Buffer
  dataLen : Nat
  isNull : Bool
  fits : dataLen ≤ maxLen

/-- `ffi.new('char[?]', max_len)`, and whatever follows it. -/
def bindCreate (maxLen : Nat) (behind : Nat → UInt8) : StringParam :=
  { maxLen := maxLen, memory := allocated fun i => if i < maxLen then 0 else behind i
    dataLen := 0, isNull := false, fits := Nat.zero_le _ }

def StringParam.len (param : StringParam) (length : Nat) : Nat :=
  if param.maxLen < length then param.maxLen else length

theorem len_min (param : StringParam) (length : Nat) :
    param.len length = min param.maxLen length := by
  unfold StringParam.len
  split <;> omega

theorem len_fits (param : StringParam) (length : Nat) : param.len length ≤ param.maxLen :=
  (len_min param length).trans_le (Nat.min_le_left _ _)

/-- `sql_param.set` of a string. -/
def StringParam.set (param : StringParam) (value : List UInt8) : StringParam :=
  let len := param.len value.length
  { param with
    memory := (allocated param.memory.bytes).write 0 (value.take len)
    dataLen := len, isNull := false, fits := len_fits param value.length }

/-- What `sb_rand_str` puts in the place of a character that is not the terminator. -/
def randChar (x : UInt64) (c : UInt8) : UInt8 :=
  if c = 35 then .ofNat (sbRandUniformRounded x 48 57)
  else if c = 64 then .ofNat (sbRandUniformRounded x 97 122)
  else c

/-- The loop of `sb_rand_str` from `i` on; `raw i` is the number drawn there. -/
def sbRandStr (raw : Nat → UInt64) : Nat → List UInt8 → Buffer → Buffer
  | _, [], buf => buf
  | i, c :: rest, buf =>
      if c = 0 then buf
      else sbRandStr raw (i + 1) rest (buf.write i [randChar (raw i) c])

/-- `sql_param.set_rand_str`. -/
def StringParam.setRandStr (param : StringParam) (raw : Nat → UInt64) (fmt : List UInt8) :
    StringParam :=
  { param with
    memory := sbRandStr raw 0 fmt (allocated param.memory.bytes)
    dataLen := param.len fmt.length, isNull := false, fits := len_fits param fmt.length }

end Calls

/-! What a call has to do. -/
section Bounds

/-- The last call has stayed inside the buffer and counted its bytes. -/
def Bounded (param : StringParam) : Prop :=
  param.memory.Within param.maxLen ∧ param.dataLen = param.memory.touched.length

/-- A digit for '#', a lower-case letter for '@', and any other character itself. -/
def Matches (c b : UInt8) : Prop :=
  if c = 35 then 48 ≤ b ∧ b ≤ 57 else if c = 64 then 97 ≤ b ∧ b ≤ 122 else b = c

def SoundRandStr (param : StringParam) (raw : Nat → UInt64) (fmt : List UInt8) : Prop :=
  let after := param.setRandStr raw fmt
  Bounded after ∧
    List.Forall₂ Matches (fmt.take after.dataLen) (after.memory.read 0 after.dataLen)

/-- The sums of the greatest draws round up to the character behind '9' or 'z'. -/
def GoodDraw (x : UInt64) (c : UInt8) : Prop :=
  (c = 35 → x.toNat < 2 ^ 64 - 8192) ∧ (c = 64 → x.toNat < 2 ^ 64 - 4096)

theorem digit_in_range (x : UInt64) :
    48 ≤ sbRandUniformRounded x 48 57 ∧ sbRandUniformRounded x 48 57 ≤ 58 :=
  uniform_rounded_between x 48 57 (by decide) (by decide)

theorem letter_in_range (x : UInt64) :
    97 ≤ sbRandUniformRounded x 97 122 ∧ sbRandUniformRounded x 97 122 ≤ 123 :=
  uniform_rounded_between x 97 122 (by decide) (by decide)

theorem digit_drawn_iff (x : UInt64) :
    sbRandUniformRounded x 48 57 ≤ 57 ↔ x.toNat < 2 ^ 64 - 8192 := by
  rw [uniform_rounded_le_iff x 48 57 (2 ^ 52 - 3) (by decide) (by decide) (by decide +kernel)
    (by decide +kernel), sbRandUniformDouble]
  omega

theorem letter_drawn_iff (x : UInt64) :
    sbRandUniformRounded x 97 122 ≤ 122 ↔ x.toNat < 2 ^ 64 - 4096 := by
  rw [uniform_rounded_le_iff x 97 122 (2 ^ 52 - 2) (by decide) (by decide) (by decide +kernel)
    (by decide +kernel), sbRandUniformDouble]
  omega

theorem rand_char_matches_iff (x : UInt64) (c : UInt8) :
    Matches c (randChar x c) ↔ GoodDraw x c := by
  unfold Matches randChar GoodDraw
  by_cases digit : c = 35
  · obtain ⟨low, high⟩ := digit_in_range x
    have other : c ≠ 64 := by rw [digit]; decide
    rw [if_pos digit, if_pos digit, UInt8.le_iff_toNat_le, UInt8.le_iff_toNat_le,
      UInt8.toNat_ofNat_of_lt' (Nat.lt_of_le_of_lt high (by decide)), ← digit_drawn_iff x]
    exact ⟨fun inside => ⟨fun _ => inside.2, fun letter => absurd letter other⟩,
      fun good => ⟨low, good.1 digit⟩⟩
  · rw [if_neg digit, if_neg digit]
    by_cases letter : c = 64
    · obtain ⟨low, high⟩ := letter_in_range x
      rw [if_pos letter, if_pos letter, UInt8.le_iff_toNat_le, UInt8.le_iff_toNat_le,
        UInt8.toNat_ofNat_of_lt' (Nat.lt_of_le_of_lt high (by decide)), ← letter_drawn_iff x]
      exact ⟨fun inside => ⟨fun same => absurd same digit, fun _ => inside.2⟩,
        fun good => ⟨low, good.2 letter⟩⟩
    · rw [if_neg letter, if_neg letter]
      exact ⟨fun _ => ⟨fun same => absurd same digit, fun same => absurd same letter⟩,
        fun _ => rfl⟩

/-- A ':' for a '#', and a '{' for a '@'. -/
example : randChar 18446744073709551615 35 = 58 ∧ randChar 18446744073709551615 64 = 123 := by
  decide +kernel

/-- The draws for the characters of `fmt` from the `i`-th on. -/
def GoodDraws (raw : Nat → UInt64) (i : Nat) (fmt : List UInt8) : Prop :=
  ∀ k c, fmt[k]? = some c → GoodDraw (raw (i + k)) c

theorem good_draws_cons (raw : Nat → UInt64) (i : Nat) (c : UInt8) (rest : List UInt8) :
    GoodDraws raw i (c :: rest) ↔ GoodDraw (raw i) c ∧ GoodDraws raw (i + 1) rest := by
  constructor
  · intro good
    refine ⟨good 0 c rfl, fun k d found => ?_⟩
    rw [Nat.add_assoc, Nat.add_comm 1]
    exact good (k + 1) d found
  · rintro ⟨first, good⟩ k d found
    cases k with
    | zero =>
        obtain rfl := Option.some.inj found
        exact first
    | succ k =>
        have next := good k d found
        rwa [Nat.add_assoc, Nat.add_comm 1] at next

theorem matches_map_iff (raw : Nat → UInt64) (fmt : List UInt8) (i : Nat) :
    List.Forall₂ Matches fmt (fmt.mapIdx fun k c => randChar (raw (i + k)) c) ↔
      GoodDraws raw i fmt := by
  induction fmt generalizing i with
  | nil => exact iff_of_true .nil fun k c found => nomatch found
  | cons c rest ih =>
      rw [List.mapIdx_cons, List.forall₂_cons, good_draws_cons, Nat.add_zero,
        rand_char_matches_iff, ← ih (i + 1)]
      simp only [Nat.add_assoc, Nat.add_comm 1]

end Bounds

/-! The loop is one write of the text that stands before the terminator. -/
section Loop

theorem rand_str_writes (raw : Nat → UInt64) (i : Nat) (fmt : List UInt8) (buf : Buffer) :
    sbRandStr raw i fmt buf =
      buf.write i ((untilTerminator fmt).mapIdx fun k c => randChar (raw (i + k)) c) := by
  induction fmt generalizing i buf with
  | nil => exact (write_nothing buf i).symm
  | cons c rest ih =>
      rw [sbRandStr]
      split
      next terminator =>
        rw [terminator, show untilTerminator (0 :: rest) = [] from rfl]
        exact (write_nothing buf i).symm
      next visible =>
        have shown : untilTerminator (c :: rest) = c :: untilTerminator rest :=
          List.takeWhile_cons_of_pos (by simpa using visible)
        rw [ih, write_cons, shown, List.mapIdx_cons]
        simp only [Nat.add_assoc, Nat.add_comm 1, Nat.add_zero]

theorem until_terminator_short_take (fmt : List UInt8) (n : Nat) :
    untilTerminator fmt = fmt.take n ↔ (untilTerminator fmt).length = min n fmt.length := by
  constructor
  · intro same
    rw [same, List.length_take]
  · intro same
    have first : untilTerminator fmt <+: fmt := List.takeWhile_prefix _
    rw [List.prefix_iff_eq_take.mp first, same, List.take_eq_take_iff]
    omega

end Loop

/-! Inside the buffer the calls are those of a parameter that ends with it. -/
section Parameter

def StringParam.charParam (param : StringParam) : CharParam :=
  { buffer := param.memory.read 0 param.maxLen, dataLen := param.dataLen
    isNull := param.isNull, fits := param.fits.trans_eq (by simp [Buffer.read]) }

theorem read_write_overlay (buffer : Buffer) (n : Nat) (data : List UInt8) :
    (buffer.write 0 data).read 0 n = overlay (buffer.read 0 n) data := by
  have length : (buffer.read 0 n).length = n := by simp [Buffer.read]
  unfold overlay
  rw [length]
  rcases Nat.le_total n data.length with short | long
  · have inside := read_write_inside buffer 0 0 n data (by omega)
    rw [List.drop_eq_nil_of_le (by omega), List.append_nil]
    simpa using inside
  · obtain ⟨rest, rfl⟩ := Nat.exists_eq_add_of_le long
    rw [read_add, read_write_same, read_write_outside _ _ _ _ _ (by omega), read_drop,
      List.take_of_length_le long, Nat.add_sub_cancel_left]

theorem char_param_set (param : StringParam) (value : List UInt8) :
    (param.set value).charParam = param.charParam.setString value := by
  have same : param.charParam.len value.length = param.len value.length := by
    simp [CharParam.len, StringParam.len, StringParam.charParam, Buffer.read]
  simp only [CharParam.setString, same]
  simp only [StringParam.charParam, StringParam.set, read_write_overlay]
  rfl

def digitDrawn (x : UInt64) : Fin 11 :=
  ⟨sbRandUniformRounded x 48 57 - 48, by
    have := (digit_in_range x).2
    omega⟩

def letterDrawn (x : UInt64) : Fin 27 :=
  ⟨sbRandUniformRounded x 97 122 - 97, by
    have := (letter_in_range x).2
    omega⟩

theorem rand_char_drawn (x : UInt64) (c : UInt8) :
    randChar x c = if c = 35 then 48 + UInt8.ofNat (digitDrawn x)
      else if c = 64 then 97 + UInt8.ofNat (letterDrawn x) else c := by
  have digit := (digit_in_range x).1
  have letter := (letter_in_range x).1
  have digits : UInt8.ofNat (sbRandUniformRounded x 48 57) = 48 + UInt8.ofNat (digitDrawn x) := by
    rw [show (48 : UInt8) = UInt8.ofNat 48 from rfl, ← UInt8.ofNat_add]
    congr 1
    simp only [digitDrawn]
    omega
  have letters :
      UInt8.ofNat (sbRandUniformRounded x 97 122) = 97 + UInt8.ofNat (letterDrawn x) := by
    rw [show (97 : UInt8) = UInt8.ofNat 97 from rfl, ← UInt8.ofNat_add]
    congr 1
    simp only [letterDrawn]
    omega
  rw [randChar, digits, letters]

theorem char_param_set_rand_str (param : StringParam) (raw : Nat → UInt64) (fmt : List UInt8) :
    (param.setRandStr raw fmt).charParam =
      param.charParam.setRandStr (fun i => digitDrawn (raw i)) (fun i => letterDrawn (raw i))
        fmt := by
  have same : param.charParam.len fmt.length = param.len fmt.length := by
    simp [CharParam.len, StringParam.len, StringParam.charParam, Buffer.read]
  have text : EmulatedStatements.sbRandStr (fun i => digitDrawn (raw i))
      (fun i => letterDrawn (raw i)) fmt =
        (untilTerminator fmt).mapIdx fun k c => randChar (raw (0 + k)) c := by
    simp only [EmulatedStatements.sbRandStr, rand_char_drawn, Nat.zero_add]
  simp only [CharParam.setRandStr, same, text]
  simp only [StringParam.charParam, StringParam.setRandStr, rand_str_writes, read_write_overlay]
  rfl

end Parameter

/-! One call, whatever the parameter has held before. -/
section Sound
variable (param : StringParam)

theorem written_from_start (contents : Nat → UInt8) (data : List UInt8) (capacity : Nat)
    (room : data.length ≤ capacity) :
    ((allocated contents).write 0 data).Within capacity ∧
      ((allocated contents).write 0 data).touched.length = data.length := by
  refine ⟨?_, by simp [Buffer.write, allocated]⟩
  by_cases none_ : data = []
  · rw [none_, write_nothing]
    exact allocated_within contents capacity
  · rw [within_write _ _ _ _ none_, Nat.zero_add]
    exact ⟨allocated_within contents capacity, room⟩

theorem set_bounded (value : List UInt8) : Bounded (param.set value) := by
  have length : (value.take (param.len value.length)).length = param.len value.length := by
    rw [List.length_take, len_min]
    omega
  obtain ⟨inside, counted⟩ := written_from_start param.memory.bytes
    (value.take (param.len value.length)) param.maxLen (length.trans_le (len_fits _ _))
  exact ⟨inside, (counted.trans length).symm⟩

/-- The buffer holds the value, cut at `max_len`. -/
theorem set_reads_back (value : List UInt8) :
    (param.set value).memory.read 0 (param.set value).dataLen = value.take param.maxLen := by
  have same : value.take (param.len value.length) = value.take param.maxLen := by
    rw [List.take_eq_take_iff, len_min]
    omega
  have length : (value.take param.maxLen).length = param.len value.length := by
    rw [List.length_take, len_min]
  simp only [StringParam.set]
  rw [same, ← length]
  exact read_write_same _ _ _

/-- Under a cut that counts them all, the characters are those of the draws. -/
theorem rand_str_sound_iff (raw : Nat → UInt64) (fmt : List UInt8)
    (cut : untilTerminator fmt = fmt.take param.maxLen) :
    SoundRandStr param raw fmt ↔ GoodDraws raw 0 (untilTerminator fmt) := by
  have length := (until_terminator_short_take fmt param.maxLen).mp cut
  have counted : param.len fmt.length = (untilTerminator fmt).length :=
    (len_min param fmt.length).trans length.symm
  -- the length that is counted ends where the characters do
  have front : fmt.take (param.len fmt.length) = untilTerminator fmt := by
    rw [cut, List.take_eq_take_iff, len_min]
    omega
  have filled := rand_str_writes raw 0 fmt (allocated param.memory.bytes)
  rw [← matches_map_iff raw (untilTerminator fmt) 0]
  generalize same : (untilTerminator fmt).mapIdx (fun k c => randChar (raw (0 + k)) c) = data
    at filled ⊢
  have whole : data.length = (untilTerminator fmt).length := by rw [← same, List.length_mapIdx]
  obtain ⟨inside, touched⟩ := written_from_start param.memory.bytes data param.maxLen (by omega)
  simp only [SoundRandStr, Bounded, StringParam.setRandStr, filled]
  rw [front, counted, ← whole, read_write_same]
  exact and_iff_right ⟨inside, touched.symm⟩

/-- A counted string is the text in front of the terminator, and as long as the buffer
unless it is the whole format. -/
theorem sound_rand_str_cut (raw : Nat → UInt64) (fmt : List UInt8)
    (sound : SoundRandStr param raw fmt) : untilTerminator fmt = fmt.take param.maxLen := by
  have counted := sound.1.2
  simp only [StringParam.setRandStr, rand_str_writes] at counted
  rw [until_terminator_short_take, ← len_min, counted]
  simp [Buffer.write, allocated]

/-- A random string stays inside the buffer, is counted and matches its format exactly if
the text of the format in front of its terminator is its first `max_len` characters and no
draw for a '#' or '@' in it is one of the greatest; a value never leaves the buffer. -/
theorem string_params_bounded_iff (raw : Nat → UInt64) (fmt value : List UInt8) :
    (SoundRandStr param raw fmt ↔ untilTerminator fmt = fmt.take param.maxLen ∧
        ∀ i c, (untilTerminator fmt)[i]? = some c → GoodDraw (raw i) c) ∧
      Bounded (param.set value) := by
  have drawn : GoodDraws raw 0 (untilTerminator fmt) ↔
      ∀ i c, (untilTerminator fmt)[i]? = some c → GoodDraw (raw i) c := by
    simp only [GoodDraws, Nat.zero_add]
  refine ⟨?_, set_bounded param value⟩
  rw [← drawn]
  constructor
  · intro sound
    have cut := sound_rand_str_cut param raw fmt sound
    exact ⟨cut, (rand_str_sound_iff param raw fmt cut).mp sound⟩
  · rintro ⟨cut, good⟩
    exact (rand_str_sound_iff param raw fmt cut).mpr good

/-- "##" for a column of one character: the second digit lies behind the buffer. -/
theorem long_format_overruns :
    let param := bindCreate 1 fun _ => 0
    (param.setRandStr (fun _ => 0) [35, 35]).memory.touched = [0, 1] ∧
      ¬ SoundRandStr param (fun _ => 0) [35, 35] := by
  refine ⟨by decide +kernel, fun sound => ?_⟩
  exact absurd (sound.1.1 1 (by decide +kernel)) (by decide)

end Sound

end PteSysbench.ParamWrites
