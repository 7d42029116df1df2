import Mathlib.Algebra.Group.Int.Defs
import Mathlib.Algebra.Group.Nat.Defs
import Mathlib.Data.List.Induction
import ClassLowering.Proofs.ParsedCode

/-! # Readers and the bytes they accept

A format says which bytes a value may be written as. `Recognizes format reader` says that the reader
accepts exactly the bytes of the format, whatever follows them, and gives back the value; formats of
sequences are put together from the formats of their parts. Where only one direction matters,
`Reads reader bytes value` says that the reader takes these bytes for this value.

Outcomes of readers that log are outcomes of readers (`LoggedRead.outcome`), so nothing has to be
said twice. -/

namespace ClassLowering

/-! ## Big-endian numbers -/

/-- The last `width` digits of a number to base 256, the highest first. -/
def bigEndianBytes : (width : Nat) → (number : Nat) → List UInt8
  | 0, _ => []
  | width + 1, number => bigEndianBytes width (number / 256) ++ [number.toUInt8]

/-- A number takes as many bytes as are asked for. -/
@[simp] theorem length_bigEndianBytes (width number : Nat) :
    (bigEndianBytes width number).length = width := by
  induction width generalizing number with
  | zero => rfl
  | succ width induction => simp [bigEndianBytes, induction]

/-- A byte behind others counts least. -/
theorem bigEndian_append_singleton (bytes : List UInt8) (last : UInt8) :
    bigEndian (bytes ++ [last]) = bigEndian bytes * 256 + last.toNat := by
  simp [bigEndian]

/-- Digits stand for the part of a number that they can hold. -/
theorem bigEndian_bigEndianBytes (width number : Nat) :
    bigEndian (bigEndianBytes width number) = number % 256 ^ width := by
  induction width generalizing number with
  | zero => simp [bigEndianBytes, bigEndian, Nat.mod_one]
  | succ width induction =>
    have digit : number.toUInt8.toNat = number % 256 := by simp
    rw [bigEndianBytes, bigEndian_append_singleton, induction, digit, Nat.pow_succ',
      Nat.mod_mul, Nat.mul_comm 256]
    omega

/-- Bytes are the digits of the number that they stand for. -/
theorem bigEndianBytes_bigEndian (bytes : List UInt8) :
    bigEndianBytes bytes.length (bigEndian bytes) = bytes := by
  induction bytes using List.reverseRecOn with
  | nil => rfl
  | append_singleton bytes last induction =>
    have bound := last.toNat_lt
    have higher : (bigEndian bytes * 256 + last.toNat) / 256 = bigEndian bytes := by omega
    have lowest : (bigEndian bytes * 256 + last.toNat).toUInt8 = last := by
      apply UInt8.toNat_inj.1
      simp
    rw [bigEndian_append_singleton, List.length_append, List.length_singleton, bigEndianBytes,
      higher, lowest, induction]

/-- A number is below the bound that its bytes give. -/
theorem bigEndian_lt (bytes : List UInt8) : bigEndian bytes < 256 ^ bytes.length := by
  rw [← bigEndianBytes_bigEndian bytes, bigEndian_bigEndianBytes, length_bigEndianBytes]
  exact Nat.mod_lt _ (Nat.pow_pos (by decide))

/-- The bytes of a 16-bit number. -/
def encode16 (value : UInt16) : List UInt8 := bigEndianBytes 2 value.toNat

/-- The bytes of a 32-bit number. -/
def encode32 (value : UInt32) : List UInt8 := bigEndianBytes 4 value.toNat

/-- The bytes of a 64-bit number. -/
def encode64 (value : UInt64) : List UInt8 := bigEndianBytes 8 value.toNat

/-- The bytes of a list behind its length. -/
def encodeCounted {α : Type} (encode : α → List UInt8) (items : List α) : List UInt8 :=
  encode16 items.length.toUInt16 ++ items.flatMap encode

/-! ## Places in a buffer -/

/-- The cursor `stop` stands behind the bytes that are next at `start`. -/
structure Cursor.Passes (start : Cursor) (bytes : List UInt8) (stop : Cursor) : Prop where
  rest : start.rest = bytes ++ stop.rest
  position : stop.position = start.position + bytes.length
  base : stop.base = start.base

namespace Cursor

/-- Over no bytes a cursor stays. -/
theorem Passes.refl (cursor : Cursor) : cursor.Passes [] cursor := ⟨rfl, rfl, rfl⟩

/-- Only over no bytes a cursor stays. -/
theorem passes_nil_iff {start stop : Cursor} : start.Passes [] stop ↔ start = stop := by
  constructor
  · rintro ⟨rest, position, base⟩
    cases start
    cases stop
    simp_all
  · rintro rfl
    exact .refl start

/-- Over bytes and then over others is over all of them. -/
theorem Passes.trans {start middle stop : Cursor} {first second : List UInt8}
    (before : start.Passes first middle) (after : middle.Passes second stop) :
    start.Passes (first ++ second) stop where
  rest := by rw [before.rest, after.rest, List.append_assoc]
  position := by rw [after.position, before.position, List.length_append, Nat.add_assoc]
  base := after.base.trans before.base

/-- Between two places there is one behind every part of the bytes. -/
theorem Passes.split {start stop : Cursor} {first second : List UInt8}
    (passes : start.Passes (first ++ second) stop) :
    ∃ middle, start.Passes first middle ∧ middle.Passes second stop := by
  refine ⟨⟨second ++ stop.rest, start.position + first.length, start.base⟩, ⟨?_, rfl, rfl⟩, rfl,
    ?_, passes.base⟩
  · rw [passes.rest, List.append_assoc]
  · rw [passes.position, List.length_append, Nat.add_assoc]

/-- Bytes are taken when the cursor behind them is known. -/
theorem take_eq_ok_iff {start stop : Cursor} {length : Nat} {bytes : List UInt8} :
    start.take length = .ok (bytes, stop) ↔ bytes.length = length ∧ start.Passes bytes stop := by
  rw [take_eq]
  constructor
  · intro taken
    split at taken
    · next enough =>
      cases taken
      have whole : (start.rest.take length).length = length := by
        rw [List.length_take]
        omega
      exact ⟨whole, (List.take_append_drop length start.rest).symm, by rw [whole], rfl⟩
    · cases taken
  · rintro ⟨rfl, rest, position, base⟩
    cases stop
    have enough : bytes.length ≤ start.rest.length := by simp [rest]
    rw [if_pos enough, rest, List.take_left, List.drop_left]
    cases position
    cases base
    rfl

end Cursor

namespace Read

variable {α β : Type}

/-- Two readers in a row, the second where the first stops. -/
theorem bind_apply (reader : Read α) (next : α → Read β) (start : Cursor) :
    (reader >>= next) start = reader start >>= fun step => next step.1 step.2 := rfl

/-- An outcome that is there already moves no cursor. -/
theorem lift_bind_apply (found : Except Error α) (next : α → Read β) (start : Cursor) :
    ((liftM found : Read α) >>= next) start = found >>= fun value => next value start := by
  cases found <;> rfl

/-! ## Formats -/

/-- The reader accepts exactly the bytes that a value may be written as, and gives the value. -/
def Recognizes (format : α → List UInt8 → Prop) (reader : Read α) : Prop :=
  ∀ start value stop, reader start = .ok (value, stop) ↔
    ∃ bytes, format value bytes ∧ start.Passes bytes stop

/-- Formats that are the same are recognized by the same readers. -/
theorem Recognizes.congr {format other : α → List UInt8 → Prop} {reader : Read α}
    (recognizes : Recognizes format reader)
    (same : ∀ value bytes, format value bytes ↔ other value bytes) :
    Recognizes other reader := by
  intro start value stop
  rw [recognizes start value stop]
  simp only [same]

/-- Without reading, the value is there over no bytes. -/
theorem recognizes_pure (value : α) :
    Recognizes (fun result bytes => result = value ∧ bytes = []) (pure value : Read α) := by
  intro start result stop
  constructor
  · intro same
    cases same
    exact ⟨[], ⟨rfl, rfl⟩, .refl start⟩
  · rintro ⟨_, ⟨rfl, rfl⟩, passes⟩
    cases Cursor.passes_nil_iff.1 passes
    rfl

/-- Nothing is recognized by failing. -/
theorem recognizes_fail (error : Error) : Recognizes (fun _ _ => False) (fail error : Read α) := by
  intro start result stop
  constructor
  · intro same
    cases same
  · rintro ⟨_, ⟨⟩, -⟩

/-- Bytes are recognized by their number alone. -/
theorem recognizes_bytes (length : Nat) :
    Recognizes (fun value bytes => value.length = length ∧ bytes = value) (bytes length) := by
  intro start value stop
  rw [bytes, Cursor.take_eq_ok_iff]
  constructor
  · rintro ⟨whole, passes⟩
    exact ⟨value, ⟨whole, rfl⟩, passes⟩
  · rintro ⟨_, ⟨whole, rfl⟩, passes⟩
    exact ⟨whole, passes⟩

/-- The bytes of a sequence are those of its parts, one after the other. -/
theorem Recognizes.bind {format : α → List UInt8 → Prop} {more : α → β → List UInt8 → Prop}
    {reader : Read α} {next : α → Read β} (first : Recognizes format reader)
    (second : ∀ value, Recognizes (more value) (next value)) :
    Recognizes (fun result bytes => ∃ value front back,
      format value front ∧ more value result back ∧ bytes = front ++ back) (reader >>= next) := by
  intro start result stop
  rw [bind_eq_ok]
  constructor
  · rintro ⟨value, middle, before, after⟩
    obtain ⟨front, written, passes⟩ := (first start value middle).1 before
    obtain ⟨back, writtenMore, passesMore⟩ := (second value middle result stop).1 after
    exact ⟨front ++ back, ⟨value, front, back, written, writtenMore, rfl⟩, passes.trans passesMore⟩
  · rintro ⟨_, ⟨value, front, back, written, writtenMore, rfl⟩, passes⟩
    obtain ⟨middle, before, after⟩ := passes.split
    exact ⟨value, middle, (first start value middle).2 ⟨front, written, before⟩,
      (second value middle result stop).2 ⟨back, writtenMore, after⟩⟩

/-- What is made of a value is recognized where the value is. -/
theorem Recognizes.map {format : α → List UInt8 → Prop} {reader : Read α}
    (recognizes : Recognizes format reader) (f : α → β) :
    Recognizes (fun result bytes => ∃ value, f value = result ∧ format value bytes)
      (f <$> reader) := by
  intro start result stop
  rw [map_eq_ok]
  constructor
  · rintro ⟨value, read, same⟩
    obtain ⟨bytes, written, passes⟩ := (recognizes start value stop).1 read
    exact ⟨bytes, ⟨value, same, written⟩, passes⟩
  · rintro ⟨bytes, ⟨value, same, written⟩, passes⟩
    exact ⟨value, (recognizes start value stop).2 ⟨bytes, written, passes⟩, same⟩

/-- One of two readers is chosen by a condition. -/
theorem Recognizes.ite {first second : α → List UInt8 → Prop} {one other : Read α}
    {condition : Prop} [Decidable condition] (recognizes : Recognizes first one)
    (recognizesOther : Recognizes second other) :
    Recognizes (fun value bytes => condition ∧ first value bytes ∨ ¬condition ∧ second value bytes)
      (if condition then one else other) := by
  by_cases holds : condition
  · simpa [holds] using recognizes
  · simpa [holds] using recognizesOther

/-! ## Fixed-width numbers -/

/-- A number is recognized in the only bytes that it has in this width. -/
theorem recognizes_number (width : Nat) :
    Recognizes (fun value bytes => value < 256 ^ width ∧ bytes = bigEndianBytes width value)
      (number width) := by
  refine ((recognizes_bytes width).map bigEndian).congr fun value bytes => ?_
  constructor
  · rintro ⟨_, rfl, rfl, rfl⟩
    exact ⟨bigEndian_lt _, (bigEndianBytes_bigEndian _).symm⟩
  · rintro ⟨small, rfl⟩
    refine ⟨_, ?_, length_bigEndianBytes width value, rfl⟩
    rw [bigEndian_bigEndianBytes, Nat.mod_eq_of_lt small]

/-- A byte is recognized as itself. -/
theorem recognizes_u8 : Recognizes (fun value bytes => bytes = [value]) u8 := by
  refine ((recognizes_number 1).map Nat.toUInt8).congr fun value bytes => ?_
  constructor
  · rintro ⟨number, rfl, -, rfl⟩
    rfl
  · rintro rfl
    exact ⟨value.toNat, by simp, value.toNat_lt, by simp [bigEndianBytes]⟩

/-- An unsigned 16-bit integer is recognized in its two bytes. -/
theorem recognizes_u16 :
    Recognizes (fun value bytes => bytes = bigEndianBytes 2 value.toNat) u16 := by
  refine ((recognizes_number 2).map Nat.toUInt16).congr fun value bytes => ?_
  constructor
  · rintro ⟨number, rfl, small, rfl⟩
    rw [Nat.toUInt16_eq, UInt16.toNat_ofNat_of_lt' small]
  · rintro rfl
    exact ⟨value.toNat, by simp, value.toNat_lt, rfl⟩

/-- An unsigned 32-bit integer is recognized in its four bytes. -/
theorem recognizes_u32 :
    Recognizes (fun value bytes => bytes = bigEndianBytes 4 value.toNat) u32 := by
  refine ((recognizes_number 4).map Nat.toUInt32).congr fun value bytes => ?_
  constructor
  · rintro ⟨number, rfl, small, rfl⟩
    rw [Nat.toUInt32_eq, UInt32.toNat_ofNat_of_lt' small]
  · rintro rfl
    exact ⟨value.toNat, by simp, value.toNat_lt, rfl⟩

/-- An unsigned 64-bit integer is recognized in its eight bytes. -/
theorem recognizes_u64 :
    Recognizes (fun value bytes => bytes = bigEndianBytes 8 value.toNat) u64 := by
  refine ((recognizes_number 8).map Nat.toUInt64).congr fun value bytes => ?_
  constructor
  · rintro ⟨number, rfl, small, rfl⟩
    rw [Nat.toUInt64_eq, UInt64.toNat_ofNat_of_lt' small]
  · rintro rfl
    exact ⟨value.toNat, by simp, value.toNat_lt, rfl⟩

/-! ## Given bytes -/

/-- The reader takes the bytes, whatever follows them, for the value. -/
def Reads (reader : Read α) (bytes : List UInt8) (value : α) : Prop :=
  ∀ start stop, start.Passes bytes stop → reader start = .ok (value, stop)

/-- What is written in a format is read by a reader that recognizes it. -/
theorem Recognizes.reads {format : α → List UInt8 → Prop} {reader : Read α}
    (recognizes : Recognizes format reader) {value : α} {bytes : List UInt8}
    (written : format value bytes) : Reads reader bytes value :=
  fun start stop passes => (recognizes start value stop).2 ⟨bytes, written, passes⟩

/-- Without reading, the value is read from no bytes. -/
theorem reads_pure (value : α) : Reads (pure value : Read α) [] value :=
  (recognizes_pure value).reads ⟨rfl, rfl⟩

/-- An outcome that is there already is read from no bytes. -/
theorem reads_lift {outcome : Except Error α} {value : α} (found : outcome = .ok value) :
    Reads (liftM outcome : Read α) [] value := by
  intro start stop passes
  exact lift_eq_ok.2 ⟨found, Cursor.passes_nil_iff.1 passes⟩

/-- Bytes and others behind them are read one after the other. -/
theorem Reads.bind {reader : Read α} {next : α → Read β} {front back : List UInt8} {value : α}
    {result : β} (first : Reads reader front value) (second : Reads (next value) back result) :
    Reads (reader >>= next) (front ++ back) result := by
  intro start stop passes
  obtain ⟨middle, before, after⟩ := passes.split
  exact bind_eq_ok.2 ⟨value, middle, first start middle before, second middle stop after⟩

/-- What is made of a value is read from its bytes. -/
theorem Reads.map {reader : Read α} {bytes : List UInt8} {value : α}
    (read : Reads reader bytes value) (f : α → β) : Reads (f <$> reader) bytes (f value) :=
  fun start stop passes => map_eq_ok.2 ⟨value, read start stop passes, rfl⟩

/-- A sequence may end with a value that is computed. -/
theorem Reads.bind_pure {reader : Read α} {bytes : List UInt8} {value : α}
    (read : Reads reader bytes value) (f : α → β) :
    Reads (reader >>= fun value => pure (f value)) bytes (f value) := by
  rw [bind_pure_comp]
  exact read.map f

/-- The bytes that are read may be written in another way. -/
theorem Reads.congr {reader : Read α} {bytes other : List UInt8} {value : α}
    (read : Reads reader bytes value) (same : other = bytes) : Reads reader other value :=
  same ▸ read

/-- A byte is read from itself. -/
theorem reads_u8 (value : UInt8) : Reads u8 [value] value := recognizes_u8.reads rfl

/-- An unsigned 16-bit integer is read from its two bytes. -/
theorem reads_u16 (value : UInt16) : Reads u16 (encode16 value) value := recognizes_u16.reads rfl

/-- An unsigned 32-bit integer is read from its four bytes. -/
theorem reads_u32 (value : UInt32) : Reads u32 (encode32 value) value := recognizes_u32.reads rfl

/-- A signed 32-bit integer is read from the bytes of its two's complement. -/
theorem reads_i32 (value : Int32) : Reads i32 (encode32 value.toUInt32) value :=
  (reads_u32 value.toUInt32).map UInt32.toInt32

/-- An unsigned 64-bit integer is read from its eight bytes. -/
theorem reads_u64 (value : UInt64) : Reads u64 (encode64 value) value := recognizes_u64.reads rfl

/-- A signed 64-bit integer is read from the bytes of its two's complement. -/
theorem reads_i64 (value : Int64) : Reads i64 (encode64 value.toUInt64) value :=
  (reads_u64 value.toUInt64).map UInt64.toInt64

/-- Bytes are read from themselves. -/
theorem reads_bytes (bytes : List UInt8) : Reads (Read.bytes bytes.length) bytes bytes :=
  (recognizes_bytes _).reads ⟨rfl, rfl⟩

/-- What is done with a buffer that is split off must not depend on where the buffer starts. -/
theorem reads_sub_bind {next : Cursor → Read β} {front back : List UInt8} {result : β}
    (reads : ∀ base, Reads (next ⟨front, 0, base⟩) back result) :
    Reads (sub front.length >>= next) (front ++ back) result := by
  intro start stop passes
  obtain ⟨middle, before, after⟩ := passes.split
  refine bind_eq_ok.2 ⟨⟨front, 0, start.offset⟩, middle, ?_, reads _ middle stop after⟩
  exact bind_eq_ok.2 ⟨start, start, rfl, bind_eq_ok.2
    ⟨front, middle, reads_bytes front start middle before, rfl⟩⟩

/-- A buffer may hold the bytes of one value only. -/
theorem Reads.run {reader : Read α} {bytes : List UInt8} {value : α}
    (read : Reads reader bytes value) (base : Nat) :
    reader ⟨bytes, 0, base⟩ = .ok (value, ⟨[], bytes.length, base⟩) :=
  read _ _ ⟨(List.append_nil bytes).symm, (Nat.zero_add _).symm, rfl⟩

/-- Values are read from the bytes of their items, one after the other. -/
theorem reads_times {reader : Read β} {encode : α → List UInt8} {denote : α → Option β}
    {items : List α} {values : List β} (found : items.mapM denote = some values)
    (reads : ∀ item ∈ items, ∀ value, denote item = some value → Reads reader (encode item) value) :
    Reads (times items.length reader) (items.flatMap encode) values := by
  induction items generalizing values with
  | nil =>
    cases found
    exact reads_pure []
  | cons item items induction =>
    obtain ⟨readsFirst, readsOthers⟩ := List.forall_mem_cons.1 reads
    rw [List.mapM_cons] at found
    obtain ⟨first, given, found⟩ := Option.bind_eq_some_iff.1 found
    obtain ⟨others, givenOthers, found⟩ := Option.bind_eq_some_iff.1 found
    cases found
    rw [List.flatMap_cons]
    exact (readsFirst first given).bind ((induction givenOthers readsOthers).bind_pure (first :: ·))

/-- A list is read behind its length if the elements are read. -/
theorem reads_counted {reader : Read β} {encode : α → List UInt8} {denote : α → Option β}
    {items : List α} {values : List β} (small : items.length < 2 ^ 16)
    (found : items.mapM denote = some values)
    (reads : ∀ item ∈ items, ∀ value, denote item = some value → Reads reader (encode item) value) :
    Reads (do let count ← u16; times count.toNat reader) (encodeCounted encode items) values := by
  refine (reads_u16 _).bind ?_
  rw [Nat.toUInt16_eq, UInt16.toNat_ofNat_of_lt' small]
  exact reads_times found reads

end Read

/-! ## Readers that log -/

namespace LoggedRead

variable {α β : Type}

/-- What a reader does, without its log. -/
def outcome (reader : LoggedRead α) : Read α := fun start => (reader start).result

/-- The outcome of a value is the value. -/
@[simp] theorem outcome_pure (value : α) : (pure value : LoggedRead α).outcome = pure value := rfl

/-- The outcome of a sequence is that of its parts. -/
@[simp] theorem outcome_bind (reader : LoggedRead α) (next : α → LoggedRead β) :
    (reader >>= next).outcome = reader.outcome >>= fun value => (next value).outcome := by
  funext start
  change (reader start >>= fun step => next step.1 step.2).result = _
  rw [Logged.result_bind]
  rfl

/-- The outcome of what is made of a result is made of the outcome. -/
@[simp] theorem outcome_map (f : α → β) (reader : LoggedRead α) :
    (f <$> reader).outcome = f <$> reader.outcome := by
  rw [← bind_pure_comp, outcome_bind, ← bind_pure_comp]
  rfl

/-- A reader without a log is its own outcome. -/
@[simp] theorem outcome_lift (reader : Read α) : (liftM reader : LoggedRead α).outcome = reader :=
  rfl

/-- An outcome that is there already stays what it is. -/
@[simp] theorem outcome_liftExcept (found : Except Error α) :
    (liftM found : LoggedRead α).outcome = liftM found := rfl

/-- Logging has no outcome of its own. -/
@[simp] theorem outcome_record (level : LogLevel) (message : String) :
    (record level message).outcome = pure () := rfl

/-- The outcome of a repeated reader is its repeated outcome. -/
@[simp] theorem outcome_times (count : Nat) (reader : LoggedRead α) :
    (times count reader).outcome = Read.times count reader.outcome := by
  induction count with
  | zero => rfl
  | succ count induction => simp [times, Read.times, induction]

end LoggedRead

end ClassLowering
