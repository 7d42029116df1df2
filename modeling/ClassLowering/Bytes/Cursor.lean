import ClassLowering.Error

/-! # Reading bytes

A `Cursor` stands in a buffer and holds the bytes that are still ahead. Every read goes through
`Cursor.take`, which either advances by exactly the length asked for or fails and says where it
stood; a failed read has no cursor, so nothing is consumed by it.

`Read` is the monad of readers. `Read.Consumes n r` says that a successful `r` consumes at least
`n` bytes; loops over readers end because of it. -/

namespace ClassLowering

/-- A place in a buffer that itself starts at `base` in the outermost buffer. -/
structure Cursor where
  /-- The bytes ahead. -/
  rest : List UInt8
  /-- How many bytes of the buffer lie behind. -/
  position : Nat := 0
  /-- Where the buffer starts in the outermost buffer. -/
  base : Nat := 0
  deriving DecidableEq, Repr

namespace Cursor

/-- The cursor at the start of an outermost buffer. -/
def ofBytes (bytes : List UInt8) : Cursor := ⟨bytes, 0, 0⟩

/-- Whether nothing is ahead. -/
def isEmpty (cursor : Cursor) : Bool := cursor.rest.isEmpty

/-- The place in the outermost buffer. -/
def offset (cursor : Cursor) : Nat := cursor.base + cursor.position

/-- The next `length` bytes and the cursor after them. -/
def take (cursor : Cursor) (length : Nat) : Except Error (List UInt8 × Cursor) :=
  let taken := cursor.rest.take length
  if taken.length = length then
    .ok (taken, ⟨cursor.rest.drop length, cursor.position + length, cursor.base⟩)
  else
    .error (.format (.unexpectedEnd cursor.offset length))

/-- A read succeeds exactly when enough bytes are ahead. -/
theorem take_eq (cursor : Cursor) (length : Nat) :
    cursor.take length =
      if length ≤ cursor.rest.length then
        .ok (cursor.rest.take length,
          ⟨cursor.rest.drop length, cursor.position + length, cursor.base⟩)
      else .error (.format (.unexpectedEnd cursor.offset length)) := by
  have enough : min length cursor.rest.length = length ↔ length ≤ cursor.rest.length := by omega
  simp only [take, List.length_take, enough]

end Cursor

/-- The number that big-endian bytes stand for. -/
def bigEndian (bytes : List UInt8) : Nat :=
  bytes.foldl (fun number byte => number * 256 + byte.toNat) 0

/-- Readers of bytes. -/
abbrev Read : Type → Type := StateT Cursor (Except Error)

namespace Read

variable {α β : Type}

/-- Fails. -/
def fail (error : Error) : Read α := fun _ => .error error

/-- Reads `length` bytes. -/
def bytes (length : Nat) : Read (List UInt8) := fun cursor => cursor.take length

/-- Passes over `length` bytes. -/
def skip (length : Nat) : Read Unit := discard (bytes length)

/-- Splits off the next `length` bytes as a buffer of their own. -/
def sub (length : Nat) : Read Cursor := do
  let start ← get
  let taken ← bytes length
  return ⟨taken, 0, start.offset⟩

/-- Reads `length` bytes as a big-endian number. -/
def number (length : Nat) : Read Nat := bigEndian <$> bytes length

/-- Reads an unsigned byte. -/
def u8 : Read UInt8 := Nat.toUInt8 <$> number 1

/-- Reads an unsigned 16-bit integer. -/
def u16 : Read UInt16 := Nat.toUInt16 <$> number 2

/-- Reads an unsigned 32-bit integer. -/
def u32 : Read UInt32 := Nat.toUInt32 <$> number 4

/-- Reads an unsigned 64-bit integer. -/
def u64 : Read UInt64 := Nat.toUInt64 <$> number 8

/-- Reads a signed byte. -/
def i8 : Read Int8 := UInt8.toInt8 <$> u8

/-- Reads a signed 16-bit integer. -/
def i16 : Read Int16 := UInt16.toInt16 <$> u16

/-- Reads a signed 32-bit integer. -/
def i32 : Read Int32 := UInt32.toInt32 <$> u32

/-- Reads a signed 64-bit integer. -/
def i64 : Read Int64 := UInt64.toInt64 <$> u64

/-- Repeats a reader. -/
def times (count : Nat) (reader : Read α) : Read (List α) :=
  match count with
  | 0 => pure []
  | count + 1 => do
    let first ← reader
    let others ← times count reader
    return first :: others

/-! ## Progress -/

/-- A successful run of the reader consumes at least `least` bytes. -/
def Consumes (least : Nat) (reader : Read α) : Prop :=
  ∀ start value stop, reader start = .ok (value, stop) →
    stop.rest.length + least ≤ start.rest.length

/-- What reads nothing consumes nothing. -/
theorem consumes_pure (value : α) : Consumes 0 (pure value : Read α) := by
  intro start result stop same
  cases same
  simp

/-- What always fails consumes whatever is wanted. -/
theorem consumes_fail (least : Nat) (error : Error) : Consumes least (fail error : Read α) := by
  intro start result stop same
  cases same

/-- Bytes that are read are consumed. -/
theorem consumes_bytes (length : Nat) : Consumes length (bytes length) := by
  intro start result stop same
  simp only [bytes, Cursor.take_eq] at same
  split at same
  · cases same
    simp
    omega
  · cases same

/-- An outcome that is there already takes no bytes. -/
theorem consumes_lift (outcome : Except Error α) : Consumes 0 (liftM outcome : Read α) := by
  intro start result stop same
  cases outcome with
  | error failure => cases same
  | ok value => cases same; simp

/-- Looking at the cursor takes no bytes. -/
theorem consumes_get : Consumes 0 (get : Read Cursor) := by
  intro start result stop same
  cases same
  simp

/-- A sequence of two readers succeeds when both do, one after the other. -/
theorem bind_eq_ok {reader : Read α} {next : α → Read β} {start stop : Cursor} {result : β} :
    (reader >>= next) start = .ok (result, stop) ↔
      ∃ value middle, reader start = .ok (value, middle) ∧
        next value middle = .ok (result, stop) := by
  change Except.bind (reader start) (fun p => next p.1 p.2) = _ ↔ _
  cases outcome : reader start with
  | error failure => simp [Except.bind]
  | ok pair =>
    obtain ⟨value, middle⟩ := pair
    simp only [Except.bind, Except.ok.injEq, Prod.mk.injEq]
    exact ⟨fun same => ⟨value, middle, ⟨rfl, rfl⟩, same⟩,
      fun ⟨_, _, ⟨sameValue, sameCursor⟩, same⟩ => sameValue ▸ sameCursor ▸ same⟩

/-- Two readers in a row consume what they consume each. -/
theorem Consumes.bind {least more : Nat} {reader : Read α} {next : α → Read β}
    (first : Consumes least reader) (second : ∀ value, Consumes more (next value)) :
    Consumes (least + more) (reader >>= next) := by
  intro start result stop same
  obtain ⟨value, middle, before, after⟩ := bind_eq_ok.1 same
  have := first start value middle before
  have := second value middle result stop after
  omega

/-- What consumes more also consumes less. -/
theorem Consumes.mono {least more : Nat} {reader : Read α} (consumes : Consumes more reader)
    (bound : least ≤ more) : Consumes least reader := fun start value stop same => by
  have := consumes start value stop same
  omega

/-- What is made of the result does not matter for what is consumed. -/
theorem Consumes.map {least : Nat} {reader : Read α} (consumes : Consumes least reader)
    (f : α → β) : Consumes least (f <$> reader) := by
  have := consumes.bind (fun value => consumes_pure (f value))
  simpa using this

/-- A number consumes its bytes. -/
theorem consumes_number (length : Nat) : Consumes length (number length) :=
  (consumes_bytes length).map _

/-- An unsigned byte consumes one byte. -/
theorem consumes_u8 : Consumes 1 u8 := (consumes_number 1).map _

/-- An unsigned 16-bit integer consumes two bytes. -/
theorem consumes_u16 : Consumes 2 u16 := (consumes_number 2).map _

/-- An unsigned 32-bit integer consumes four bytes. -/
theorem consumes_u32 : Consumes 4 u32 := (consumes_number 4).map _

/-- A signed byte consumes one byte. -/
theorem consumes_i8 : Consumes 1 i8 := consumes_u8.map _

/-- A signed 16-bit integer consumes two bytes. -/
theorem consumes_i16 : Consumes 2 i16 := consumes_u16.map _

/-- A signed 32-bit integer consumes four bytes. -/
theorem consumes_i32 : Consumes 4 i32 := consumes_u32.map _

/-- Splitting off a buffer divides the bytes ahead. -/
theorem sub_length {length : Nat} {start part stop : Cursor}
    (found : sub length start = .ok (part, stop)) :
    part.rest.length + stop.rest.length = start.rest.length := by
  obtain ⟨_, _, here, found⟩ := bind_eq_ok.1 found
  cases here
  obtain ⟨taken, rest, read, found⟩ := bind_eq_ok.1 found
  cases found
  simp only [bytes, Cursor.take_eq] at read
  split at read
  · cases read
    simp
    omega
  · cases read

/-- A buffer that is split off may be empty. -/
theorem consumes_sub (length : Nat) : Consumes 0 (sub length) := by
  intro start part stop same
  have := sub_length same
  omega

/-- A repeated reader gives no byte back. -/
theorem consumes_times {reader : Read α} (consumes : Consumes 0 reader) (count : Nat) :
    Consumes 0 (times count reader) := by
  induction count with
  | zero => exact consumes_pure _
  | succ count rest =>
    exact consumes.bind fun _ => rest.bind fun _ => consumes_pure _

end Read

end ClassLowering
