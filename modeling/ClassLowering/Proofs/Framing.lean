import Mathlib.Algebra.GroupWithZero.Nat
import ClassLowering.Proofs.Encoding.Buffers

/-! # Attributes are framed by their lengths

A list of attributes is a sequence of records, each with a name, a length and that many bytes.
`AttributeRecord.data` is what a record stands for. It is computed from the record alone, in a
buffer that holds the payload and nothing else.

Code holds records in its payload, so a record stands at a path: the index of a record in the list,
followed by indices into lists in the payloads of code. `Attribute.Located` says that reading a list
gets to a record at a path, which it does if the records before it can be decoded;
`Attribute.descend` follows the same path through attributes. The two go together at every depth
(`Attribute.readList_framing`). -/

namespace ClassLowering

open Read

/-- An attribute in a buffer: the index of its name, and a payload that is as long as the four bytes
in front of it say. -/
structure AttributeRecord where
  name : UInt16
  payload : List UInt8
  short : payload.length < 2 ^ 32

namespace AttributeRecord

/-- The bytes of the record. -/
def encode (record : AttributeRecord) : List UInt8 :=
  StoredAttribute.encodeWith record.name record.payload

/-- A record has six bytes in front of its payload. -/
@[simp] theorem length_encode (record : AttributeRecord) :
    record.encode.length = 6 + record.payload.length := by
  simp only [encode, StoredAttribute.encodeWith, encode16, encode32, List.length_append,
    length_bigEndianBytes]
  omega

variable (pool : ConstantPool) (record : AttributeRecord)

/-- What the record stands for: what the decoder under its name makes of a buffer that holds the
payload only, or the payload if there is no such decoder. -/
def data : Except Error Attribute := do
  let text ← pool.utf8 record.name
  match Attribute.decoder? pool text with
  | some decoder => Prod.fst <$> decoder (Cursor.ofBytes record.payload)
  | none => .ok (.raw text record.payload)

variable {pool record} in
/-- A record with a name is decoded by the decoder of that name, or kept as it is. -/
theorem data_of_named {text : String} (named : pool.utf8 record.name = .ok text) :
    record.data pool =
      match Attribute.decoder? pool text with
      | some decoder => Prod.fst <$> decoder (Cursor.ofBytes record.payload)
      | none => .ok (.raw text record.payload) := by
  rw [data, named]
  rfl

/-- What the record stands for if its payload starts at a place. -/
def dataAt (place : Nat) : Except Error Attribute := do
  let text ← pool.utf8 record.name
  Attribute.decode pool text ⟨record.payload, 0, place⟩

/-- The place shows in failures only. -/
theorem dataAt_eq (place : Nat) :
    record.dataAt pool place = (record.data pool).mapError (Error.shift place) := by
  have moved : (Cursor.ofBytes record.payload).shift place = ⟨record.payload, 0, place⟩ := by
    simp [Cursor.ofBytes, Cursor.shift]
  have placeless := pool.placeless_utf8 record.name place
  unfold dataAt data
  cases found : pool.utf8 record.name with
  | error failure =>
    rw [found] at placeless
    exact congrArg Except.error (Except.error.inj placeless).symm
  | ok text =>
    have same := Attribute.decode_shift pool text place (Cursor.ofBytes record.payload)
    rw [moved, Attribute.decode_eq pool text (Cursor.ofBytes record.payload)] at same
    exact same

/-- Where a record starts makes no difference to what it is decoded to. -/
theorem dataAt_eq_ok_iff (place : Nat) {meant : Attribute} :
    record.dataAt pool place = .ok meant ↔ record.data pool = .ok meant := by
  rw [dataAt_eq]
  cases record.data pool with
  | error failure => exact ⟨nofun, nofun⟩
  | ok value => exact Iff.rfl

/-- A name that is not known gives the payload as it is. -/
theorem data_of_unknown {text : String} (named : pool.utf8 record.name = .ok text)
    (unknown : text ∉ StoredAttribute.knownNames) :
    record.data pool = .ok (.raw text record.payload) := by
  rw [data_of_named named, (Attribute.decoder?_eq_none_iff pool).2 unknown]

/-- A decoder that would do something else if more bytes followed fails because the payload ends. -/
theorem endsAt_data {text : String} (named : pool.utf8 record.name = .ok text)
    {decoder : Read Attribute} (registered : Attribute.decoder? pool text = some decoder)
    {more : List UInt8}
    (differs : Prod.fst <$> decoder (Cursor.ofBytes (record.payload ++ more)) ≠
      Prod.fst <$> decoder (Cursor.ofBytes record.payload)) :
    EndsAt record.payload.length (record.data pool) := by
  have bounded := Attribute.bounded_of_decoder? pool registered
  have ends : EndsAt (Cursor.ofBytes record.payload).limit
      (decoder (Cursor.ofBytes record.payload)) :=
    bounded.endsAt differs
  have limit : (Cursor.ofBytes record.payload).limit = record.payload.length := by
    simp [Cursor.limit, Cursor.offset, Cursor.ofBytes]
  rw [limit] at ends
  rw [data_of_named named, registered]
  exact ends.map Prod.fst

end AttributeRecord

namespace Attribute

variable {pool : ConstantPool}

/-! ## One record -/

/-- The header of a record that is there is read, up to the name of the record. -/
theorem readHeader_of_passes {record : AttributeRecord} {start next : Cursor}
    (passes : start.Passes record.encode next) :
    readHeader pool start = (do
      let text ← pool.utf8 record.name
      .ok ((text, ⟨record.payload, 0, start.offset + 6⟩), next)) := by
  obtain ⟨afterName, name, passes⟩ := passes.split
  obtain ⟨afterLength, length, payload⟩ := passes.split
  have small : record.payload.length.toUInt32.toNat = record.payload.length := by
    rw [Nat.toUInt32_eq, UInt32.toNat_ofNat_of_lt' record.short]
  have place : afterLength.offset = start.offset + 6 := by
    rw [length.offset, name.offset]
    simp [encode16, encode32, Nat.add_assoc]
  have taken : sub record.payload.length afterLength =
      .ok (⟨record.payload, 0, start.offset + 6⟩, next) := by
    rw [← place]
    refine bind_eq_ok.2
      ⟨afterLength, afterLength, rfl, bind_eq_ok.2 ⟨record.payload, next, ?_, rfl⟩⟩
    exact reads_bytes record.payload afterLength next payload
  -- the name is looked up before the length is read
  unfold readHeader
  rw [bind_apply, reads_u16 record.name start afterName name]
  change (liftM (pool.utf8 record.name) >>= fun text => u32 >>= fun length =>
    sub length.toNat >>= fun payload => pure (text, payload) : Read (String × Cursor)) afterName = _
  rw [lift_bind_apply]
  cases pool.utf8 record.name with
  | error failure => rfl
  | ok text =>
    change (u32 >>= fun length => sub length.toNat >>= fun payload =>
      pure (text, payload) : Read (String × Cursor)) afterName = .ok ((text, _), next)
    refine bind_eq_ok.2 ⟨_, afterLength, reads_u32 _ afterName afterLength length, ?_⟩
    rw [small]
    exact bind_eq_ok.2 ⟨_, next, taken, rfl⟩

/-- A header is only read where a record is. -/
theorem exists_of_readHeader {start payload next : Cursor} {text : String}
    (found : readHeader pool start = .ok ((text, payload), next)) :
    ∃ record : AttributeRecord, start.Passes record.encode next := by
  obtain ⟨name, afterName, readName, found⟩ := bind_eq_ok.1 found
  obtain ⟨_, _, named, found⟩ := bind_eq_ok.1 found
  obtain ⟨-, rfl⟩ := lift_eq_ok.1 named
  obtain ⟨length, afterLength, readLength, found⟩ := bind_eq_ok.1 found
  obtain ⟨_, _, taken, found⟩ := bind_eq_ok.1 found
  obtain ⟨_, _, here, taken⟩ := bind_eq_ok.1 taken
  cases here
  obtain ⟨bytes, _, read, taken⟩ := bind_eq_ok.1 taken
  cases taken
  cases found
  obtain ⟨_, rfl, passesName⟩ := (recognizes_u16 _ _ _).1 readName
  obtain ⟨_, rfl, passesLength⟩ := (recognizes_u32 _ _ _).1 readLength
  obtain ⟨whole, passes⟩ := Cursor.take_eq_ok_iff.1 read
  -- as many bytes are taken as the length says, so it is the length of the payload
  have short : bytes.length < 2 ^ 32 := whole ▸ length.toNat_lt
  have declared : bytes.length.toUInt32 = length := by
    rw [whole]
    simp
  refine ⟨⟨name, bytes, short⟩, ?_⟩
  rw [AttributeRecord.encode, StoredAttribute.encodeWith, declared]
  exact passesName.trans (passesLength.trans passes)

/-- A record is decoded from its payload, and the others are read behind it. -/
theorem readMany_of_passes {record : AttributeRecord} {start next : Cursor}
    (passes : start.Passes record.encode next) (count : Nat) :
    LoggedRead.outcome (readMany pool (count + 1)) start = (do
      let first ← record.dataAt pool (start.offset + 6)
      let (others, stop) ← LoggedRead.outcome (readMany pool count) next
      .ok (first :: others, stop)) := by
  rw [outcome_readMany_succ, bind_apply, readHeader_of_passes passes]
  unfold AttributeRecord.dataAt
  cases pool.utf8 record.name with
  | error failure => rfl
  | ok text =>
    change ((liftM (decode pool text ⟨record.payload, 0, start.offset + 6⟩) : Read Attribute) >>=
      fun first => LoggedRead.outcome (readMany pool count) >>= fun others =>
        pure (first :: others)) next = _
    rw [lift_bind_apply]
    rfl

/-- Attributes are read one record after the other. -/
theorem readMany_succ_eq_ok_iff {count : Nat} {start stop : Cursor} {attributes : List Attribute} :
    LoggedRead.outcome (readMany pool (count + 1)) start = .ok (attributes, stop) ↔
      ∃ (record : AttributeRecord) (next : Cursor) (first : Attribute) (others : List Attribute),
        start.Passes record.encode next ∧ record.data pool = .ok first ∧
        LoggedRead.outcome (readMany pool count) next = .ok (others, stop) ∧
        attributes = first :: others := by
  constructor
  · intro found
    -- the header alone shows that there is a record
    have header := found
    rw [outcome_readMany_succ] at header
    obtain ⟨⟨text, payload⟩, next, header, -⟩ := bind_eq_ok.1 header
    obtain ⟨record, passes⟩ := exists_of_readHeader header
    rw [readMany_of_passes passes] at found
    obtain ⟨first, decoded, found⟩ := Except.bind_eq_ok.1 found
    obtain ⟨⟨others, _⟩, read, found⟩ := Except.bind_eq_ok.1 found
    cases found
    exact ⟨record, next, first, others, passes, (record.dataAt_eq_ok_iff pool _).1 decoded, read,
      rfl⟩
  · rintro ⟨record, next, first, others, passes, decoded, read, rfl⟩
    rw [readMany_of_passes passes, (record.dataAt_eq_ok_iff pool _).2 decoded]
    exact Except.bind_eq_ok.2 ⟨first, rfl, Except.bind_eq_ok.2 ⟨(others, stop), read, rfl⟩⟩

/-- Attributes are read exactly from the records that stand for them, one after the other. -/
theorem readMany_eq_ok_iff {count : Nat} {start stop : Cursor} {attributes : List Attribute} :
    LoggedRead.outcome (readMany pool count) start = .ok (attributes, stop) ↔
      ∃ records : List AttributeRecord, records.length = count ∧
        start.Passes (records.flatMap AttributeRecord.encode) stop ∧
        List.Forall₂ (fun record meant => record.data pool = .ok meant) records attributes := by
  -- one record after the other, as many as are counted
  induction count generalizing start attributes with
  | zero =>
    rw [outcome_readMany_zero]
    constructor
    · intro found
      cases found
      exact ⟨[], rfl, .refl _, .nil⟩
    · rintro ⟨records, none, passes, decoded⟩
      cases List.length_eq_zero_iff.1 none
      cases decoded
      cases Cursor.passes_nil_iff.1 passes
      rfl
  | succ count induction =>
    rw [readMany_succ_eq_ok_iff]
    constructor
    · rintro ⟨record, next, first, others, passes, decoded, read, rfl⟩
      obtain ⟨records, length, passesOthers, decodedOthers⟩ := induction.1 read
      refine ⟨record :: records, congrArg (· + 1) length, ?_, .cons decoded decodedOthers⟩
      rw [List.flatMap_cons]
      exact passes.trans passesOthers
    · rintro ⟨records, length, passes, decoded⟩
      cases decoded with
      | nil => cases length
      | cons first others =>
        rw [List.flatMap_cons] at passes
        obtain ⟨next, passes, passesOthers⟩ := passes.split
        exact ⟨_, next, _, _, passes, first,
          induction.2 ⟨_, Nat.succ.inj length, passesOthers, others⟩, rfl⟩

/-! ## Records in a list -/

variable (pool) in
/-- Reading `count` attributes gets to a record behind `index` others; its payload starts at a
place. -/
inductive Listed : (index count : Nat) → Cursor → AttributeRecord → (place : Nat) → Prop where
  | first {count : Nat} {start next : Cursor} {record : AttributeRecord} :
    start.Passes record.encode next → Listed 0 (count + 1) start record (start.offset + 6)
  | later {index count place : Nat} {start next : Cursor} {record target : AttributeRecord}
      {meant : Attribute} :
    start.Passes record.encode next → record.data pool = .ok meant →
      Listed index count next target place → Listed (index + 1) (count + 1) start target place

namespace Listed

variable {index count place : Nat} {start : Cursor} {record : AttributeRecord}

/-- If a record cannot be decoded, the list cannot be read, for the same reason. -/
theorem readMany_error (listed : Listed pool index count start record place) {failure : Error}
    (failed : record.dataAt pool place = .error failure) :
    LoggedRead.outcome (readMany pool count) start = .error failure := by
  induction listed with
  | first passes =>
    rw [readMany_of_passes passes, failed]
    rfl
  | @later _ _ _ start next before _ meant passes decoded _ induction =>
    rw [readMany_of_passes passes, (before.dataAt_eq_ok_iff pool _).2 decoded]
    change (LoggedRead.outcome (readMany pool _) next >>= fun step =>
      Except.ok (meant :: step.1, step.2)) = _
    rw [induction failed]
    rfl

/-- If the list can be read, the record is decoded to the attribute with its index. -/
theorem getElem?_of_readMany (listed : Listed pool index count start record place)
    {attributes : List Attribute} {stop : Cursor}
    (read : LoggedRead.outcome (readMany pool count) start = .ok (attributes, stop)) :
    ∃ meant, record.data pool = .ok meant ∧ attributes[index]? = some meant := by
  induction listed generalizing attributes with
  | @first _ _ _ record passes =>
    rw [readMany_of_passes passes] at read
    obtain ⟨first, decoded, read⟩ := Except.bind_eq_ok.1 read
    obtain ⟨_, -, read⟩ := Except.bind_eq_ok.1 read
    cases read
    exact ⟨first, (record.dataAt_eq_ok_iff pool _).1 decoded, rfl⟩
  | later passes _ _ induction =>
    rw [readMany_of_passes passes] at read
    obtain ⟨first, -, read⟩ := Except.bind_eq_ok.1 read
    obtain ⟨⟨others, _⟩, readOthers, read⟩ := Except.bind_eq_ok.1 read
    cases read
    exact induction readOthers

/-- The payload lies behind the header of its record and in the buffer. -/
theorem bounds (listed : Listed pool index count start record place) :
    start.offset + 6 ≤ place ∧ place + record.payload.length ≤ start.limit := by
  induction listed with
  | @first _ start next record passes =>
    have limit : start.limit = start.offset + (record.encode.length + next.rest.length) := by
      rw [Cursor.limit, passes.rest, List.length_append]
    rw [AttributeRecord.length_encode] at limit
    omega
  | @later _ _ _ start next record _ _ passes _ _ induction =>
    have offset := passes.offset
    have limit := passes.limit
    omega

end Listed

/-- Every attribute of a list that was read is at the index of a record. -/
theorem exists_listed {index count : Nat} {start stop : Cursor} {attributes : List Attribute}
    {meant : Attribute}
    (read : LoggedRead.outcome (readMany pool count) start = .ok (attributes, stop))
    (found : attributes[index]? = some meant) :
    ∃ record place, Listed pool index count start record place ∧ record.data pool = .ok meant := by
  induction count generalizing index start attributes with
  | zero =>
    rw [outcome_readMany_zero] at read
    cases read
    cases found
  | succ count induction =>
    obtain ⟨record, next, first, others, passes, decoded, readOthers, rfl⟩ :=
      readMany_succ_eq_ok_iff.1 read
    cases index with
    | zero =>
      cases found
      exact ⟨record, _, .first passes, decoded⟩
    | succ index =>
      obtain ⟨target, place, listed, same⟩ := induction readOthers found
      exact ⟨target, place, .later passes decoded listed, same⟩

/-! ## Records in the code of records -/

/-- The attribute behind a path of indices into the attributes of code. -/
def descend : List Nat → Attribute → Option Attribute
  | [], found => some found
  | index :: path, code _ inner => inner[index]? >>= descend path
  | _ :: _, _ => none

variable (pool) in
/-- Decoding a record whose payload starts at a place gets to another record behind a path of
indices into lists of attributes of code. -/
inductive Nested :
    (path : List Nat) → AttributeRecord → (place : Nat) → AttributeRecord → (within : Nat) →
      Prop where
  | self {record : AttributeRecord} {place : Nat} : Nested [] record place record place
  | inside {index place middlePlace within : Nat} {path : List Nat} {nested : Cursor}
      {frame : CodeFrame} {count : UInt16} {outer middle target : AttributeRecord} :
    pool.utf8 outer.name = .ok "Code" →
      readCodeFrame pool ⟨outer.payload, 0, place⟩ = .ok ((frame, count), nested) →
      Listed pool index count.toNat nested middle middlePlace →
      Nested path middle middlePlace target within →
        Nested (index :: path) outer place target within

/-- The code of a method is decoded from its frame and the attributes behind it. -/
theorem dataAt_code {record : AttributeRecord} {place : Nat} {frame : CodeFrame} {count : UInt16}
    {nested : Cursor} (named : pool.utf8 record.name = .ok "Code")
    (framed : readCodeFrame pool ⟨record.payload, 0, place⟩ = .ok ((frame, count), nested)) :
    record.dataAt pool place =
      (fun step => code frame step.1) <$>
        LoggedRead.outcome (readMany pool count.toNat) nested := by
  rw [AttributeRecord.dataAt, named]
  change decode pool "Code" ⟨record.payload, 0, place⟩ = _
  rw [decode, if_pos rfl, framed]
  change (LoggedRead.outcome (readMany pool count.toNat) nested >>= fun step =>
    pure (code frame step.1)) = _
  rw [bind_pure_comp]

/-- Only a record with the name of code is decoded to code. -/
theorem exists_of_dataAt_code {record : AttributeRecord} {place : Nat} {frame : CodeFrame}
    {inner : List Attribute} (decoded : record.dataAt pool place = .ok (code frame inner)) :
    pool.utf8 record.name = .ok "Code" ∧
      ∃ (count : UInt16) (nested stop : Cursor),
        readCodeFrame pool ⟨record.payload, 0, place⟩ = .ok ((frame, count), nested) ∧
        LoggedRead.outcome (readMany pool count.toNat) nested = .ok (inner, stop) := by
  obtain ⟨text, named, found⟩ := Except.bind_eq_ok.1 decoded
  by_cases isCode : text = "Code"
  · subst isCode
    rw [decode, if_pos rfl] at found
    obtain ⟨⟨⟨_, count⟩, nested⟩, framed, found⟩ := Except.bind_eq_ok.1 found
    obtain ⟨⟨_, stop⟩, read, found⟩ := Except.bind_eq_ok.1 found
    cases found
    exact ⟨named, count, nested, stop, framed, read⟩
  · -- what is decoded without a frame is not code
    rw [decode, if_neg isCode] at found
    have never : FrameHas (fun _ => False) (code frame inner) := frameHas_of_readPlain found
    exact never.elim

/-- A record stands for code if its name says so and its payload starts with a frame and, behind
that, as many records as the frame announces. -/
theorem data_eq_code_iff {record : AttributeRecord} {frame : CodeFrame} {inner : List Attribute} :
    record.data pool = .ok (code frame inner) ↔
      pool.utf8 record.name = .ok "Code" ∧
        ∃ (count : UInt16) (nested stop : Cursor) (records : List AttributeRecord),
          readCodeFrame pool (Cursor.ofBytes record.payload) = .ok ((frame, count), nested) ∧
          records.length = count.toNat ∧
          nested.Passes (records.flatMap AttributeRecord.encode) stop ∧
          List.Forall₂ (fun record meant => record.data pool = .ok meant) records inner := by
  rw [← record.dataAt_eq_ok_iff pool 0]
  constructor
  · intro decoded
    obtain ⟨named, count, nested, stop, framed, read⟩ := exists_of_dataAt_code decoded
    obtain ⟨records, length, passes, decodedAll⟩ := readMany_eq_ok_iff.1 read
    exact ⟨named, count, nested, stop, records, framed, length, passes, decodedAll⟩
  · rintro ⟨named, count, nested, stop, records, framed, length, passes, decodedAll⟩
    rw [dataAt_code named framed, readMany_eq_ok_iff.2 ⟨records, length, passes, decodedAll⟩]
    rfl

/-- A frame has at least twelve bytes. -/
theorem offset_of_readCodeFrame {start nested : Cursor} {frame : CodeFrame} {count : UInt16}
    (framed : readCodeFrame pool start = .ok ((frame, count), nested)) :
    start.offset + 12 ≤ nested.offset ∧ nested.limit = start.limit := by
  have consumes : Consumes 12 (readCodeFrame pool) :=
    (consumes_u16.bind fun _ => consumes_u16.bind fun _ => consumes_u32.bind fun _ =>
      (consumes_sub _).bind fun _ => (consumes_lift _).bind fun _ => consumes_u16.bind fun _ =>
      (consumes_times (consumes_readExceptionHandler pool) _).bind fun _ =>
      consumes_u16.bind fun _ => consumes_pure _).mono (by decide)
  have consumed := consumes start (frame, count) nested framed
  have limit := (bounded_readCodeFrame pool).isLocal.limit framed
  have ahead : nested.limit = nested.offset + nested.rest.length := rfl
  have before : start.limit = start.offset + start.rest.length := rfl
  omega

namespace Nested

variable {path : List Nat} {outer target : AttributeRecord} {place within : Nat}

/-- If a record cannot be decoded, no record that it is in can be, for the same reason. -/
theorem dataAt_error (nested : Nested pool path outer place target within) {failure : Error}
    (failed : target.dataAt pool within = .error failure) :
    outer.dataAt pool place = .error failure := by
  induction nested with
  | self => exact failed
  | inside named framed listed _ induction =>
    rw [dataAt_code named framed, listed.readMany_error (induction failed)]
    rfl

/-- If a record can be decoded, every record in it is decoded to the attribute behind its path. -/
theorem descend_of_data (nested : Nested pool path outer place target within) {whole : Attribute}
    (decoded : outer.data pool = .ok whole) :
    ∃ meant, target.data pool = .ok meant ∧ descend path whole = some meant := by
  induction nested generalizing whole with
  | self => exact ⟨whole, decoded, rfl⟩
  | @inside index place _ _ path _ frame _ outer _ _ named framed listed _ induction =>
    have decoded := (outer.dataAt_eq_ok_iff pool place).2 decoded
    rw [dataAt_code named framed] at decoded
    obtain ⟨⟨inner, stop⟩, read, rfl⟩ := Except.map_eq_ok.1 decoded
    obtain ⟨middle, decodedMiddle, found⟩ := listed.getElem?_of_readMany read
    obtain ⟨meant, decodedTarget, descends⟩ := induction decodedMiddle
    refine ⟨meant, decodedTarget, ?_⟩
    simp only [descend, found]
    exact descends

/-- Each level of code takes at least eighteen bytes in front of the payloads in it. -/
theorem bounds (nested : Nested pool path outer place target within) :
    place + 18 * path.length ≤ within ∧
      within + target.payload.length ≤ place + outer.payload.length := by
  induction nested with
  | self => exact ⟨Nat.le_refl _, Nat.le_refl _⟩
  | @inside _ place _ _ _ nested _ _ outer _ _ _ framed listed _ induction =>
    -- a level is twelve bytes of a frame and six of a header
    obtain ⟨behind, limit⟩ := offset_of_readCodeFrame framed
    have start : (⟨outer.payload, 0, place⟩ : Cursor).offset = place := rfl
    have whole : (⟨outer.payload, 0, place⟩ : Cursor).limit = place + outer.payload.length := rfl
    have bounds := listed.bounds
    rw [List.length_cons]
    omega

end Nested

/-- Every attribute in a decoded record is at the path of a record. -/
theorem exists_nested {path : List Nat} {outer : AttributeRecord} {whole meant : Attribute}
    (place : Nat)
    (decoded : outer.data pool = .ok whole) (found : descend path whole = some meant) :
    ∃ target within, Nested pool path outer place target within ∧ target.data pool = .ok meant := by
  induction path generalizing outer place whole with
  | nil =>
    cases found
    exact ⟨outer, place, .self, decoded⟩
  | cons index path induction =>
    cases whole with
    | code frame inner =>
      obtain ⟨named, count, start, stop, framed, read⟩ :=
        exists_of_dataAt_code ((outer.dataAt_eq_ok_iff pool place).2 decoded)
      obtain ⟨middle, got, found⟩ := Option.bind_eq_some_iff.1 found
      obtain ⟨record, middlePlace, listed, decodedMiddle⟩ := exists_listed read got
      obtain ⟨target, within, nested, decodedTarget⟩ := induction middlePlace decodedMiddle found
      exact ⟨target, within, .inside named framed listed nested, decodedTarget⟩
    | _ => cases found

/-! ## Lists with their length in front -/

/-- The length of a list of records is told from the lengths of the payloads. -/
theorem length_encodeCounted_encode (records : List AttributeRecord) :
    (encodeCounted AttributeRecord.encode records).length =
      2 + (records.map fun record => 6 + record.payload.length).sum := by
  simp [encodeCounted, encode16, List.length_flatMap]

/-- A list of attributes is read where its count and as many records are that can be decoded. -/
theorem readList_eq_ok_iff {start stop : Cursor} {attributes : List Attribute} :
    (readList pool).outcome start = .ok (attributes, stop) ↔
      ∃ records : List AttributeRecord, records.length < 2 ^ 16 ∧
        start.Passes (encodeCounted AttributeRecord.encode records) stop ∧
        List.Forall₂ (fun record meant => record.data pool = .ok meant) records attributes := by
  rw [outcome_readList, bind_eq_ok]
  constructor
  · rintro ⟨count, first, counted, read⟩
    obtain ⟨_, rfl, passesCount⟩ := (recognizes_u16 _ _ _).1 counted
    obtain ⟨records, length, passes, decoded⟩ := readMany_eq_ok_iff.1 read
    refine ⟨records, length ▸ count.toNat_lt, ?_, decoded⟩
    rw [encodeCounted, length]
    simpa [encode16] using passesCount.trans passes
  · rintro ⟨records, few, passes, decoded⟩
    obtain ⟨first, counted, passes⟩ := passes.split
    refine ⟨_, first, reads_u16 _ start first counted,
      readMany_eq_ok_iff.2 ⟨records, ?_, passes, decoded⟩⟩
    rw [Nat.toUInt16_eq, UInt16.toNat_ofNat_of_lt' few]

variable (pool) in
/-- Reading a list of attributes gets to a record in the record with an index, behind a path; its
payload starts at a place. -/
def Located (index : Nat) (path : List Nat) (start : Cursor) (record : AttributeRecord)
    (place : Nat) : Prop :=
  ∃ (count : UInt16) (first : Cursor) (outer : AttributeRecord) (outerPlace : Nat),
    u16 start = .ok (count, first) ∧ Listed pool index count.toNat first outer outerPlace ∧
    Nested pool path outer outerPlace record place

namespace Located

variable {index : Nat} {path : List Nat} {start : Cursor} {record : AttributeRecord} {place : Nat}

/-- A record that cannot be decoded, however deep it is, makes the whole list fail with its
failure. -/
theorem readList_error (located : Located pool index path start record place) {failure : Error}
    (failed : record.data pool = .error failure) :
    (readList pool).outcome start = .error (failure.shift place) := by
  obtain ⟨count, first, outer, outerPlace, counted, listed, nested⟩ := located
  have failedThere : record.dataAt pool place = .error (failure.shift place) := by
    rw [AttributeRecord.dataAt_eq, failed]
    rfl
  have read := listed.readMany_error (nested.dataAt_error failedThere)
  rw [outcome_readList, bind_apply, counted]
  exact read

/-- A record of a list that is read is found at its path, decoded. -/
theorem descend_of_readList (located : Located pool index path start record place)
    {attributes : List Attribute} {stop : Cursor}
    (read : (readList pool).outcome start = .ok (attributes, stop)) :
    ∃ meant, record.data pool = .ok meant ∧
      attributes[index]?.bind (descend path) = some meant := by
  obtain ⟨count, first, outer, outerPlace, counted, listed, nested⟩ := located
  rw [outcome_readList, bind_apply, counted] at read
  obtain ⟨whole, decoded, found⟩ := listed.getElem?_of_readMany read
  obtain ⟨meant, decodedRecord, descends⟩ := nested.descend_of_data decoded
  refine ⟨meant, decodedRecord, ?_⟩
  rw [found]
  exact descends

/-- The depth of a record is bounded by the place of its payload. -/
theorem bounds (located : Located pool index path start record place) :
    start.offset + 8 + 18 * path.length ≤ place ∧
      place + record.payload.length ≤ start.limit := by
  obtain ⟨count, first, outer, outerPlace, counted, listed, nested⟩ := located
  obtain ⟨_, rfl, passes⟩ := (recognizes_u16 _ _ _).1 counted
  have offset : first.offset = start.offset + 2 := by
    rw [passes.offset, length_bigEndianBytes]
  have limit := passes.limit
  have outerBounds := listed.bounds
  have innerBounds := nested.bounds
  omega

end Located

/-- An attribute at a path of a list that is read comes from a record there. -/
theorem exists_located {start stop : Cursor} {attributes : List Attribute} {index : Nat}
    {path : List Nat} {meant : Attribute}
    (read : (readList pool).outcome start = .ok (attributes, stop))
    (found : attributes[index]?.bind (descend path) = some meant) :
    ∃ record place, Located pool index path start record place ∧ record.data pool = .ok meant := by
  rw [outcome_readList] at read
  obtain ⟨count, first, counted, read⟩ := bind_eq_ok.1 read
  obtain ⟨whole, got, descends⟩ := Option.bind_eq_some_iff.1 found
  obtain ⟨outer, outerPlace, listed, decoded⟩ := exists_listed read got
  obtain ⟨record, place, nested, decodedRecord⟩ := exists_nested outerPlace decoded descends
  exact ⟨record, place, ⟨count, first, outer, outerPlace, counted, listed, nested⟩, decodedRecord⟩

variable (pool) in
/-- Attributes are framed by their lengths and decoded from their payloads only.

A list is read if and only if it is its number of records and then the records, each of which can be
decoded on its own; so the cursor moves by the declared lengths. The list in the payload of code is
framed in the same way. At every depth the attribute at a path is what the record at that path
stands for, so it is the same wherever the record is; a record that cannot be decoded makes the
whole list fail, also if its decoder would find in the surrounding bytes what it misses in the
payload. The depth is bounded by the length of the buffer. -/
theorem readList_framing :
    (∀ start attributes stop, (readList pool).outcome start = .ok (attributes, stop) ↔
      ∃ records : List AttributeRecord, records.length < 2 ^ 16 ∧
        start.Passes (encodeCounted AttributeRecord.encode records) stop ∧
        List.Forall₂ (fun record meant => record.data pool = .ok meant) records attributes) ∧
    (∀ (start stop : Cursor) (records : List AttributeRecord),
      start.Passes (encodeCounted AttributeRecord.encode records) stop →
        stop.position =
          start.position + (2 + (records.map fun record => 6 + record.payload.length).sum)) ∧
    (∀ (record : AttributeRecord) frame inner, record.data pool = .ok (code frame inner) ↔
      pool.utf8 record.name = .ok "Code" ∧
        ∃ (count : UInt16) (nested stop : Cursor) (records : List AttributeRecord),
          readCodeFrame pool (Cursor.ofBytes record.payload) = .ok ((frame, count), nested) ∧
          records.length = count.toNat ∧
          nested.Passes (records.flatMap AttributeRecord.encode) stop ∧
          List.Forall₂ (fun record meant => record.data pool = .ok meant) records inner) ∧
    (∀ (record : AttributeRecord) text, pool.utf8 record.name = .ok text →
      text ∉ StoredAttribute.knownNames → record.data pool = .ok (.raw text record.payload)) ∧
    (∀ start attributes stop index path meant,
      (readList pool).outcome start = .ok (attributes, stop) →
        attributes[index]?.bind (descend path) = some meant →
          ∃ record place, Located pool index path start record place ∧
            record.data pool = .ok meant) ∧
    (∀ start index path record place, Located pool index path start record place →
      (∀ attributes stop, (readList pool).outcome start = .ok (attributes, stop) →
        ∃ meant, record.data pool = .ok meant ∧
          attributes[index]?.bind (descend path) = some meant) ∧
      (∀ failure, record.data pool = .error failure →
        (readList pool).outcome start = .error (failure.shift place)) ∧
      (∀ text decoder more, pool.utf8 record.name = .ok text → decoder? pool text = some decoder →
        Prod.fst <$> decoder (Cursor.ofBytes (record.payload ++ more)) ≠
          Prod.fst <$> decoder (Cursor.ofBytes record.payload) →
        EndsAt (place + record.payload.length) ((readList pool).outcome start)) ∧
      start.offset + 8 + 18 * path.length ≤ place ∧
      place + record.payload.length ≤ start.limit) ∧
    (∀ start attributes stop index path place other others otherStop otherIndex otherPath otherPlace
        record,
      (readList pool).outcome start = .ok (attributes, stop) →
      (readList pool).outcome other = .ok (others, otherStop) →
      Located pool index path start record place →
      Located pool otherIndex otherPath other record otherPlace →
        attributes[index]?.bind (descend path) = others[otherIndex]?.bind (descend otherPath)) := by
  refine ⟨fun _ _ _ => readList_eq_ok_iff, ?_, fun _ _ _ => data_eq_code_iff,
    fun record _ => record.data_of_unknown pool, fun _ _ _ _ _ _ => exists_located, ?_, ?_⟩
  · intro start stop records passes
    rw [passes.position, length_encodeCounted_encode]
  · intro start index path record place located
    refine ⟨fun _ _ => located.descend_of_readList, fun _ => located.readList_error, ?_,
      located.bounds⟩
    intro text decoder more named registered differs
    -- a payload that ends too early does so at its own end, wherever it is nested
    obtain ⟨offset, needed, failed, before, behind⟩ :=
      record.endsAt_data pool named registered differs
    exact ⟨offset + place, needed, located.readList_error failed, by omega, by omega⟩
  · intro start attributes stop index path place other others otherStop otherIndex otherPath
      otherPlace record read readOther located locatedOther
    obtain ⟨meant, decoded, found⟩ := located.descend_of_readList read
    obtain ⟨meantOther, decodedOther, foundOther⟩ := locatedOther.descend_of_readList readOther
    have same : meant = meantOther := Except.ok.inj (decoded.symm.trans decodedOther)
    rw [found, foundOther, same]

/-- A pool with the names of code, of a nest host and of an attribute that is not known, and a
class. -/
def framedPool : ConstantPool :=
  ⟨#[.utf8 "Code", .utf8 "NestHost", .utf8 "Odd", .utf8 "H", .classRef 4]⟩

/-- The payload of code that returns, with one attribute. -/
def returning (inner : List UInt8) : List UInt8 :=
  [0, 0, 0, 0, 0, 0, 0, 1, 0xB1, 0, 0, 0, 1] ++ inner

/-- The frame in front of that attribute. -/
def returningFrame : CodeFrame := ⟨0, 0, 1, [⟨.returnVoid, 0, .simple, false⟩], []⟩

/-- The front part of the code attributes that are used here as examples. -/
theorem readCodeFrame_returning (inner : List UInt8) (place : Nat) :
    readCodeFrame framedPool ⟨returning inner, 0, place⟩ =
      .ok ((returningFrame, 1), ⟨inner, 13, place⟩) := by
  have alone : readCodeFrame framedPool (Cursor.ofBytes (returning [])) =
      .ok ((returningFrame, 1), ⟨[], 13, 0⟩) :=
    Except.eq_ok_of_mem_toOption (by decide +kernel)
  have extended := (bounded_readCodeFrame framedPool).isLocal.extend alone inner
  have moved := shifts_readCodeFrame framedPool place ((Cursor.ofBytes (returning [])).extend inner)
  rw [extended] at moved
  simpa [Cursor.ofBytes, Cursor.extend, Cursor.shift, returning, shiftStep] using moved

section

variable (host : List UInt8) (short : host.length < 2 ^ 16)

/-- A nest host. -/
def hostRecord : AttributeRecord := ⟨2, host, by omega⟩

/-- Code with that nest host and a byte behind it. -/
def innerRecord : AttributeRecord where
  name := 1
  payload := returning ((hostRecord host short).encode ++ [5])
  short := by
    simp [returning, hostRecord]
    omega

/-- Code with that code in it. -/
def outerRecord : AttributeRecord where
  name := 1
  payload := returning (innerRecord host short).encode
  short := by
    simp [returning, innerRecord, hostRecord]
    omega

/-- A list of two attributes, that code and one with a name that is not known, and a byte behind
it. -/
def framedBytes : List UInt8 :=
  encode16 2 ++ ((outerRecord host short).encode ++ (StoredAttribute.encodeWith 3 [1, 2, 3] ++ [9]))

/-- The nest host is reached in the code in the code. -/
theorem located_host :
    Located framedPool 0 [0, 0] (Cursor.ofBytes (framedBytes host short)) (hostRecord host short)
      46 := by
  have named : framedPool.utf8 1 = .ok "Code" := rfl
  have first (count : Nat) (record : AttributeRecord) (rest : List UInt8) (position base : Nat) :
      Listed framedPool 0 (count + 1) ⟨record.encode ++ rest, position, base⟩ record
        (base + position + 6) := by
    have passes : (⟨record.encode ++ rest, position, base⟩ : Cursor).Passes record.encode
      ⟨rest, position + record.encode.length, base⟩ := ⟨rfl, rfl, rfl⟩
    exact .first passes
  have inner : Listed framedPool 0 1 ⟨(innerRecord host short).encode, 13, 8⟩
      (innerRecord host short) 27 := by
    simpa using first 0 (innerRecord host short) [] 13 8
  refine ⟨2, ⟨_, 2, 0⟩, outerRecord host short, 8, reads_u16 2 _ _ ⟨rfl, rfl, rfl⟩,
    first 1 _ _ 2 0, ?_⟩
  refine .inside named (readCodeFrame_returning _ 8) inner ?_
  exact .inside named (readCodeFrame_returning _ 27) (first 0 _ _ 13 27) .self

end

/-- A nest host is read two levels down from a payload that is longer than it has to be; from a
payload of one byte it is not read, though the byte that is missing follows. -/
theorem readList_framing_host :
    (readList framedPool).outcome (Cursor.ofBytes (framedBytes [0, 5, 7] (by decide))) =
      .ok ([.code returningFrame [.code returningFrame [.nestHost "H"]], .raw "Odd" [1, 2, 3]],
        ⟨[9], 59, 0⟩) ∧
    EndsAt 47 ((readList framedPool).outcome (Cursor.ofBytes (framedBytes [0] (by decide)))) := by
  obtain ⟨list, -, inCode, unknown, -, located, -⟩ := readList_framing framedPool
  have named : framedPool.utf8 1 = .ok "Code" := rfl
  constructor
  · have host : (hostRecord [0, 5, 7] (by decide)).data framedPool = .ok (.nestHost "H") := rfl
    have inner : (innerRecord [0, 5, 7] (by decide)).data framedPool =
        .ok (.code returningFrame [.nestHost "H"]) :=
      (inCode _ _ _).2 ⟨named, 1, _, ⟨[5], 22, 0⟩, [_], readCodeFrame_returning _ 0, rfl,
        ⟨rfl, rfl, rfl⟩, .cons host .nil⟩
    have outer : (outerRecord [0, 5, 7] (by decide)).data framedPool =
        .ok (.code returningFrame [.code returningFrame [.nestHost "H"]]) :=
      (inCode _ _ _).2 ⟨named, 1, _, ⟨[], 42, 0⟩, [_], readCodeFrame_returning _ 0, rfl,
        ⟨rfl, rfl, rfl⟩, .cons inner .nil⟩
    have odd := unknown ⟨3, [1, 2, 3], by decide⟩ "Odd" rfl (by decide)
    exact (list _ _ _).2 ⟨[_, _], by decide, ⟨rfl, rfl, rfl⟩, .cons outer (.cons odd .nil)⟩
  · obtain ⟨-, -, ends, -⟩ := located _ _ _ _ _ (located_host [0] (by decide))
    refine ends "NestHost" (readIndexed framedPool.className nestHost) [5] rfl rfl ?_
    intro same
    cases same

end Attribute

end ClassLowering
