import PteSysbench.LittleEndian

/-!
The MDP=1 buffer of `SYS_set_pte_meta`. `pte_meta_syscalls.h` declares the
header as four `uint32_t` (the README prints the same struct); `test3.c`
declares it packed, with two `uint16_t` in front of the length. Both programs
hand their bytes to one system call, so each layout is also a reader here.
-/

namespace PteSysbench.MetadataLayout

open LittleEndian

/-- `struct metadata_header` of pte_meta_syscalls.h: version, type, length, reserved. -/
def syscallsHeader : List Nat := [4, 4, 4, 4]

/-- `struct metadata_header` of test3.c, `__attribute__((packed))`. -/
def test3Header : List Nat := [2, 2, 4]

/-- The bytes behind `meta_buffer` when `set_pte_meta_structured` makes its
call. `malloced` is what malloc returned: `none` for NULL, else the old
contents of the block, which stay there when `payload` is NULL. -/
def setPteMetaStructured (malloced : Option (Nat → UInt8)) (version type : Nat)
    (payload : Option (List UInt8)) (payloadLen : Nat) : Option (List UInt8) :=
  let header := pack [(4, version), (4, type), (4, payloadLen), (4, 0)]
  match malloced with
  | none => none
  | some block =>
      match payload with
      | some bytes => some (header ++ bytes.take payloadLen)
      | none => some (header ++ (List.range payloadLen).map fun i => block (header.length + i))

/-- `meta_buffer` of `test_mdp1`, for any header values in place of its constants. -/
def testMdp1Buffer (version type : Nat) (payload : List UInt8) : List UInt8 :=
  pack [(2, version), (2, type), (4, payload.length)] ++ payload

/-- What a reader of an MDP=1 buffer takes from it. `following` counts the
bytes really present behind the header. -/
structure Received where
  version : Nat
  type : Nat
  length : Nat
  payload : List UInt8
  following : Nat
  deriving DecidableEq

def readAs (header : List Nat) (buffer : List UInt8) : Option Received :=
  match unpack header buffer with
  | some (version :: type :: length :: _, rest) =>
      some ⟨version, type, length, rest.take length, rest.length⟩
  | _ => none

/-- The reader sees what the writer meant and is not sent past the buffer. -/
def GivesBack (received : Option Received) (version type : Nat) (payload : List UInt8) : Prop :=
  ∃ view, received = some view ∧ view.version = version ∧ view.type = type ∧
    view.length = payload.length ∧ view.payload = payload ∧ view.length ≤ view.following

/-- The same 16 header bytes, cut where test3's fields end. -/
theorem structured_bytes_split (version type length : Nat) :
    pack [(4, version), (4, type), (4, length), (4, 0)] =
      pack [(2, version), (2, version / 256 ^ 2), (4, type)] ++ pack [(4, length), (4, 0)] := by
  simp only [pack, List.append_nil, List.append_assoc]
  rw [show (4 : Nat) = 2 + 2 from rfl, encode_add 2 2 version]
  simp only [List.append_assoc]

theorem structured_read_by_test3 (block : Nat → UInt8) (version type : Nat)
    (payload : List UInt8) (versionFits : version < 2 ^ 16) (typeFits : type < 2 ^ 16) :
    (setPteMetaStructured (some block) version type (some payload) payload.length).bind
        (readAs test3Header) =
      some ⟨version, 0, type, (pack [(4, payload.length), (4, 0)] ++ payload).take type,
        8 + payload.length⟩ := by
  -- the type field is read from the upper half of the version
  have highZero : version / 256 ^ 2 % 256 ^ 2 = 0 := by omega
  have read := unpack_pack [(2, version), (2, version / 256 ^ 2), (4, type)]
    (pack [(4, payload.length), (4, 0)] ++ payload)
  simp only [List.map_cons, List.map_nil, highZero,
    Nat.mod_eq_of_lt (show version < 256 ^ 2 by omega),
    Nat.mod_eq_of_lt (show type < 256 ^ 4 by omega)] at read
  simp only [setPteMetaStructured, Option.bind_some, List.take_length, readAs, test3Header]
  rw [structured_bytes_split, List.append_assoc, read]
  simp [layoutSize]

theorem mdp1_read_by_syscalls (version type : Nat) (payload : List UInt8)
    (versionFits : version < 2 ^ 16) (typeFits : type < 2 ^ 16)
    (lengthFits : payload.length < 2 ^ 32) (enough : 8 ≤ payload.length) :
    ∃ view, readAs syscallsHeader (testMdp1Buffer version type payload) = some view ∧
      view.version = version + 2 ^ 16 * type ∧ view.type = payload.length := by
  -- the fields length and reserved of the longer header fall into the payload
  obtain ⟨low, high, tail, cut, lowSize, highSize⟩ :
      ∃ low high tail : List UInt8, payload = low ++ (high ++ tail) ∧
        low.length = 4 ∧ high.length = 4 :=
    ⟨payload.take 4, (payload.drop 4).take 4, payload.drop 8, by
      rw [show payload.drop 8 = (payload.drop 4).drop 4 by rw [List.drop_drop],
        List.take_append_drop, List.take_append_drop], by simp; omega, by simp; omega⟩
  have front : encode 2 version ++ encode 2 type = encode 4 (version + 2 ^ 16 * type) := by
    rw [show (4 : Nat) = 2 + 2 from rfl, encode_add]
    have lowPart : encode 2 (version + 2 ^ 16 * type) = encode 2 version := by
      simp only [encode, List.cons.injEq, and_true]
      refine ⟨UInt8.toNat_inj.mp ?_, UInt8.toNat_inj.mp ?_⟩
      · simp only [UInt8.toNat_ofNat']
        omega
      · simp only [UInt8.toNat_ofNat']
        omega
    rw [lowPart, show (version + 2 ^ 16 * type) / 256 ^ 2 = type by omega]
  have buffer : testMdp1Buffer version type payload =
      encode 4 (version + 2 ^ 16 * type) ++
        (encode 4 payload.length ++ (low ++ (high ++ tail))) := by
    simp only [testMdp1Buffer, pack, List.append_nil, List.append_assoc, ← cut, ← front]
  refine ⟨⟨version + 2 ^ 16 * type, payload.length, decode low, tail.take (decode low),
    tail.length⟩, ?_, rfl, rfl⟩
  rw [buffer, readAs, syscallsHeader, unpack_cons _ _ _ _ (encode_length _ _),
    unpack_cons _ _ _ _ (encode_length _ _), unpack_cons _ _ _ _ lowSize,
    unpack_cons _ _ _ _ highSize,
    decode_encode_of_lt 4 _ (show version + 2 ^ 16 * type < 256 ^ 4 by omega),
    decode_encode_of_lt 4 _ (show payload.length < 256 ^ 4 by omega)]
  rfl

/-- Each program reads its own buffers back, which is all its own check sees. -/
theorem structured_self_read (block : Nat → UInt8) (version type : Nat) (payload : List UInt8)
    (versionFits : version < 2 ^ 32) (typeFits : type < 2 ^ 32)
    (lengthFits : payload.length < 2 ^ 32) :
    GivesBack ((setPteMetaStructured (some block) version type (some payload) payload.length).bind
      (readAs syscallsHeader)) version type payload := by
  have read := unpack_pack [(4, version), (4, type), (4, payload.length), (4, 0)] payload
  simp only [List.map_cons, List.map_nil, Nat.mod_eq_of_lt (show version < 256 ^ 4 by omega),
    Nat.mod_eq_of_lt (show type < 256 ^ 4 by omega),
    Nat.mod_eq_of_lt (show payload.length < 256 ^ 4 by omega)] at read
  refine ⟨⟨version, type, payload.length, payload, payload.length⟩, ?_, rfl, rfl, rfl, rfl, le_rfl⟩
  simp only [setPteMetaStructured, Option.bind_some, List.take_length, readAs, syscallsHeader]
  rw [read]
  simp

theorem mdp1_self_read (version type : Nat) (payload : List UInt8)
    (versionFits : version < 2 ^ 16) (typeFits : type < 2 ^ 16)
    (lengthFits : payload.length < 2 ^ 32) :
    GivesBack (readAs test3Header (testMdp1Buffer version type payload)) version type payload := by
  have read := unpack_pack [(2, version), (2, type), (4, payload.length)] payload
  simp only [List.map_cons, List.map_nil, Nat.mod_eq_of_lt (show version < 256 ^ 2 by omega),
    Nat.mod_eq_of_lt (show type < 256 ^ 2 by omega),
    Nat.mod_eq_of_lt (show payload.length < 256 ^ 4 by omega)] at read
  refine ⟨⟨version, type, payload.length, payload, payload.length⟩, ?_, rfl, rfl, rfl, rfl, le_rfl⟩
  simp only [testMdp1Buffer, readAs, test3Header]
  rw [read]
  simp

/-- test3's layout understands a sysbench buffer only for type 0 and no payload;
the sysbench layout never understands a test3 buffer. -/
theorem header_layouts_agree_iff (block : Nat → UInt8) (version type : Nat)
    (payload : List UInt8) (versionFits : version < 2 ^ 16) (typeFits : type < 2 ^ 16)
    (lengthFits : payload.length < 2 ^ 32) :
    (GivesBack ((setPteMetaStructured (some block) version type (some payload)
        payload.length).bind (readAs test3Header)) version type payload ↔
      type = 0 ∧ payload = []) ∧
    ¬ GivesBack (readAs syscallsHeader (testMdp1Buffer version type payload))
      version type payload := by
  constructor
  · rw [structured_read_by_test3 block version type payload versionFits typeFits]
    constructor
    · rintro ⟨view, read, _, sameType, sameLength, _, _⟩
      cases read
      have typeZero : type = 0 := sameType.symm
      exact ⟨typeZero, List.length_eq_zero_iff.mp (sameLength.symm.trans typeZero)⟩
    · rintro ⟨typeZero, empty⟩
      subst typeZero empty
      exact ⟨_, rfl, rfl, rfl, rfl, rfl, Nat.zero_le _⟩
  · rintro ⟨view, read, sameVersion, sameType, _⟩
    by_cases enough : 8 ≤ payload.length
    · obtain ⟨seen, readSeen, versionSeen, typeSeen⟩ :=
        mdp1_read_by_syscalls version type payload versionFits typeFits lengthFits enough
      rw [readSeen] at read
      cases read
      omega
    · -- Fewer than 16 bytes: the reader would have to run off the buffer.
      have short : (testMdp1Buffer version type payload).length < layoutSize syscallsHeader := by
        simp only [testMdp1Buffer, List.length_append, pack_length]
        simp only [layoutSize, syscallsHeader, List.map_cons, List.map_nil, List.sum_cons,
          List.sum_nil]
        omega
      simp [readAs, unpack_short _ _ short] at read

theorem header_layouts_agree_iff_at_test_values :
    (1 < 2 ^ 16 ∧ 0x1234 < 2 ^ 16 ∧ [0xDE, 0xAD, 0xBE, 0xEF].length < 2 ^ 32) ∧
    (GivesBack ((setPteMetaStructured (some fun _ => 0) 1 0x1234 (some [0xDE, 0xAD, 0xBE, 0xEF])
        4).bind (readAs test3Header)) 1 0x1234 [0xDE, 0xAD, 0xBE, 0xEF] ↔
      0x1234 = 0 ∧ [0xDE, 0xAD, 0xBE, 0xEF] = ([] : List UInt8)) ∧
    ¬ GivesBack (readAs syscallsHeader (testMdp1Buffer 1 0x1234 [0xDE, 0xAD, 0xBE, 0xEF]))
      1 0x1234 [0xDE, 0xAD, 0xBE, 0xEF] :=
  ⟨by decide, header_layouts_agree_iff (fun _ => 0) 1 0x1234 [0xDE, 0xAD, 0xBE, 0xEF]
    (by decide) (by decide) (by decide)⟩

/-- `event_seq_write`'s call (version 1, type 0x1234, the counter 7 as payload)
read by test3's layout: type 0 and 0x1234 bytes of payload where 16 follow. -/
theorem structured_event_misread_by_test3 :
    (setPteMetaStructured (some fun _ => 0) 1 0x1234 (some (encode 8 7)) 8).bind
        (readAs test3Header) =
      some ⟨1, 0, 0x1234, [8, 0, 0, 0, 0, 0, 0, 0, 7, 0, 0, 0, 0, 0, 0, 0], 16⟩ ∧
    ¬ GivesBack ((setPteMetaStructured (some fun _ => 0) 1 0x1234 (some (encode 8 7)) 8).bind
      (readAs test3Header)) 1 0x1234 (encode 8 7) := by
  have read : (setPteMetaStructured (some fun _ => 0) 1 0x1234 (some (encode 8 7)) 8).bind
        (readAs test3Header) =
      some ⟨1, 0, 0x1234, [8, 0, 0, 0, 0, 0, 0, 0, 7, 0, 0, 0, 0, 0, 0, 0], 16⟩ := by
    decide +kernel
  refine ⟨read, ?_⟩
  rw [read]
  rintro ⟨view, same, _, sameType, _⟩
  cases same
  exact absurd sameType (by decide)

end PteSysbench.MetadataLayout
