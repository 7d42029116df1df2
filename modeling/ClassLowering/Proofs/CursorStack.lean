import Mathlib.Data.Nat.Digits.Defs
import ClassLowering.Proofs.Encoding.Reading

/-! # Programs of reads

A program of reads works on a stack of cursors, which starts with one cursor at the start of the
outermost buffer. A command asks the cursor on top for the next bytes (as a number, as they are, to
pass over them, or as a buffer of their own with a cursor that is then on top), puts a copy of the
cursor on top, or removes it.

A cursor only knows the bytes ahead of it. A `Window` keeps the buffer that it stands in beside it
from the time the cursor is made. Commands move windows in place (`InPlace`): a command that fails
leaves the window wherever it has come to by then, and that this is where it was is something to
prove.

Through every program all buffers are parts of the outermost one, at the places that their cursors
name (`CursorStack.run_within`). So what a command does can be told from the outermost buffer and
three numbers (`CursorStack.step_ask`), it does what the reader of a cursor does
(`CursorStack.step_eq_ask`), and what is beneath a cursor stays as it is for as long as the cursor
is there (`CursorStack.suffix_run`). -/

namespace ClassLowering

/-- What is made of the result does not matter for the cursor. -/
theorem Read.map_apply {α β : Type} (f : α → β) (reader : Read α) (start : Cursor) :
    (f <$> reader) start = (fun step => (f step.1, step.2)) <$> reader start := by
  rw [← bind_pure_comp, bind_apply]
  cases reader start <;> rfl

/-! ## Numbers -/

/-- The formats that numbers are read in. -/
inductive NumberFormat where
  | u8
  | i8
  | u16
  | i16
  | u32
  | i32
  | i64
  | f32
  | f64
  deriving DecidableEq, Repr

namespace NumberFormat

/-- How many bytes a number takes. -/
def width : NumberFormat → Nat
  | u8 | i8 => 1
  | u16 | i16 => 2
  | u32 | i32 | f32 => 4
  | i64 | f64 => 8

/-- Whether numbers may be negative. The bits of a floating-point number are not. -/
def isSigned : NumberFormat → Bool
  | i8 | i16 | i32 | i64 => true
  | u8 | u16 | u32 | f32 | f64 => false

/-- Reads a number; of a floating-point number, its bits. -/
def read : NumberFormat → Read Int
  | u8 => (fun value => (value.toNat : Int)) <$> Read.u8
  | i8 => Int8.toInt <$> Read.i8
  | u16 => (fun value => (value.toNat : Int)) <$> Read.u16
  | i16 => Int16.toInt <$> Read.i16
  | u32 | f32 => (fun value => (value.toNat : Int)) <$> Read.u32
  | i32 => Int32.toInt <$> Read.i32
  | i64 => Int64.toInt <$> Read.i64
  | f64 => (fun value => (value.toNat : Int)) <$> Read.u64

/-- A number below the bound of the format, in two's complement if numbers may be negative. -/
def wrap (format : NumberFormat) (number : Nat) : Int :=
  if format.isSigned then (number : Int).bmod (256 ^ format.width) else number

/-- The number that bytes stand for: they are its digits to base 256, the highest first. -/
def value (format : NumberFormat) (bytes : List UInt8) : Int :=
  format.wrap (Nat.ofDigits 256 (bytes.reverse.map UInt8.toNat))

/-- Big-endian bytes are the digits of their number to base 256, the highest first. -/
theorem bigEndian_eq_ofDigits (bytes : List UInt8) :
    bigEndian bytes = Nat.ofDigits 256 (bytes.reverse.map UInt8.toNat) := by
  induction bytes using List.reverseRecOn with
  | nil => rfl
  | append_singleton bytes last induction =>
    rw [bigEndian_append_singleton, List.reverse_append, List.reverse_singleton,
      List.singleton_append, List.map_cons, Nat.ofDigits_cons, induction]
    omega

/-- Only what is made of numbers that fit into their bytes matters. -/
theorem map_number_congr {α : Type} {width : Nat} {f g : Nat → α}
    (same : ∀ number < 256 ^ width, f number = g number) :
    f <$> Read.number width = g <$> Read.number width := by
  funext cursor
  unfold Read.number Read.bytes
  simp only [Read.map_apply]
  cases taken : cursor.take width with
  | error failure => rfl
  | ok step =>
    obtain ⟨bytes, stop⟩ := step
    obtain ⟨rfl, -⟩ := Cursor.take_eq_ok_iff.1 taken
    exact congrArg (fun number => Except.ok (number, stop)) (same _ (bigEndian_lt bytes))

/-- A signed number is the remainder that is nearest to zero. -/
theorem wrap_eq_bmod {format : NumberFormat} {size : Nat} (signed : format.isSigned = true)
    (bound : 256 ^ format.width = size) (number : Nat) :
    format.wrap number = (number : Int).bmod size := by
  rw [wrap, if_pos signed, bound]

/-- The words that numbers are read into hold them. -/
theorem read_eq_number (format : NumberFormat) :
    format.read = format.wrap <$> Read.number format.width := by
  -- words of the width of a format hold its numbers, so nothing is cut off
  cases format with
  | u8 =>
    rw [read, Read.u8, Functor.map_map]
    exact map_number_congr fun number small => congrArg _ (UInt8.toNat_ofNat_of_lt' small)
  | u16 =>
    rw [read, Read.u16, Functor.map_map]
    exact map_number_congr fun number small => congrArg _ (UInt16.toNat_ofNat_of_lt' small)
  | u32 | f32 =>
    rw [read, Read.u32, Functor.map_map]
    exact map_number_congr fun number small => congrArg _ (UInt32.toNat_ofNat_of_lt' small)
  | f64 =>
    rw [read, Read.u64, Functor.map_map]
    exact map_number_congr fun number small => congrArg _ (UInt64.toNat_ofNat_of_lt' small)
  | i8 =>
    rw [read, Read.i8, Read.u8, Functor.map_map, Functor.map_map]
    exact map_number_congr fun number _ =>
      Int8.toInt_ofNat'.trans (wrap_eq_bmod rfl (by decide) number).symm
  | i16 =>
    rw [read, Read.i16, Read.u16, Functor.map_map, Functor.map_map]
    exact map_number_congr fun number _ =>
      Int16.toInt_ofNat'.trans (wrap_eq_bmod rfl (by decide) number).symm
  | i32 =>
    rw [read, Read.i32, Read.u32, Functor.map_map, Functor.map_map]
    exact map_number_congr fun number _ =>
      Int32.toInt_ofNat'.trans (wrap_eq_bmod rfl (by decide) number).symm
  | i64 =>
    rw [read, Read.i64, Read.u64, Functor.map_map, Functor.map_map]
    exact map_number_congr fun number _ =>
      Int64.toInt_ofNat'.trans (wrap_eq_bmod rfl (by decide) number).symm

/-- A number is read from as many bytes as its format takes, and it is the one they stand for. -/
theorem read_apply (format : NumberFormat) (cursor : Cursor) :
    format.read cursor =
      (fun step => (format.value step.1, step.2)) <$> cursor.take format.width := by
  rw [read_eq_number, Read.number, Read.map_apply, Read.map_apply, Functor.map_map]
  simp only [bigEndian_eq_ofDigits]
  rfl

end NumberFormat

/-! ## Windows -/

/-- The bytes of a buffer from a place on. -/
def slice (bytes : List UInt8) (start length : Nat) : List UInt8 := (bytes.drop start).take length

/-- A slice of a slice. -/
theorem slice_slice (bytes : List UInt8) {start size inner length : Nat}
    (inside : inner + length ≤ size) :
    slice (slice bytes start size) inner length = slice bytes (start + inner) length := by
  unfold slice
  rw [List.drop_take, List.drop_drop, List.take_take, Nat.min_eq_left (by omega)]

/-- A slice inside a buffer has the length that was asked for. -/
theorem length_slice {bytes : List UInt8} {start length : Nat}
    (inside : start + length ≤ bytes.length) : (slice bytes start length).length = length := by
  rw [slice, List.length_take, List.length_drop]
  omega

/-- A cursor with the whole buffer that it was made for. -/
structure Window where
  buffer : List UInt8
  cursor : Cursor
  deriving DecidableEq, Repr

namespace Window

/-- The window of a cursor at the start of its buffer. -/
def ofCursor (cursor : Cursor) : Window := ⟨cursor.rest, cursor⟩

/-- How many bytes are left in the buffer. -/
def left (window : Window) : Nat := window.buffer.length - window.cursor.position

/-- The window with its cursor some bytes further on. -/
def advance (window : Window) (length : Nat) : Window :=
  { window with
    cursor :=
      ⟨window.cursor.rest.drop length, window.cursor.position + length, window.cursor.base⟩ }

/-- The buffer is the part of the outermost one that starts at the base of the cursor, and the
cursor stands in it. -/
structure Within (bytes : List UInt8) (window : Window) : Prop where
  buffer : window.buffer = slice bytes window.cursor.base window.buffer.length
  inside : window.cursor.base + window.buffer.length ≤ bytes.length
  position : window.cursor.position ≤ window.buffer.length
  rest : window.cursor.rest = window.buffer.drop window.cursor.position

/-- Places of the cursor can be added up in 64-bit words: its place in the outermost buffer, and the
place behind bytes that are left. -/
structure Addressable (window : Window) : Prop where
  offset : (window.cursor.base.toUInt64 + window.cursor.position.toUInt64).toNat =
    window.cursor.base + window.cursor.position
  behind : ∀ length : UInt64, length.toNat ≤ window.left →
    (window.cursor.position.toUInt64 + length).toNat = window.cursor.position + length.toNat

variable {bytes : List UInt8} {window : Window}

/-- The outermost buffer is a part of itself. -/
theorem within_ofBytes (bytes : List UInt8) : (ofCursor (.ofBytes bytes)).Within bytes where
  buffer := (List.take_length).symm
  inside := Nat.le_of_eq (Nat.zero_add _)
  position := Nat.zero_le _
  rest := rfl

/-- The part of a buffer that is ahead of a window begins at a place of the outermost buffer. -/
theorem Within.slice_buffer (within : window.Within bytes) {length : Nat}
    (enough : length ≤ window.left) :
    slice window.buffer window.cursor.position length =
      slice bytes window.cursor.offset length := by
  have inside : window.cursor.position + length ≤ window.buffer.length := by
    have := within.position
    unfold Window.left at enough
    omega
  rw [within.buffer]
  exact slice_slice bytes inside

/-- Bytes that are left in a window are taken from the outermost buffer. -/
theorem Within.take (within : window.Within bytes) (length : Nat) :
    window.cursor.take length =
      if length ≤ window.left then
        .ok (slice bytes window.cursor.offset length, (window.advance length).cursor)
      else .error (.format (.unexpectedEnd window.cursor.offset length)) := by
  have left : window.cursor.rest.length = window.left := by
    rw [within.rest, List.length_drop, Window.left]
  rw [Cursor.take_eq, left]
  by_cases enough : length ≤ window.left
  · have taken : window.cursor.rest.take length = slice bytes window.cursor.offset length := by
      rw [within.rest]
      exact within.slice_buffer enough
    rw [if_pos enough, if_pos enough, taken]
    rfl
  · rw [if_neg enough, if_neg enough]

/-- A cursor that moves over bytes that are left stays in its buffer. -/
theorem Within.advance (within : window.Within bytes) {length : Nat}
    (enough : length ≤ window.left) :
    (window.advance length).Within bytes where
  buffer := within.buffer
  inside := within.inside
  position := by
    have := within.position
    unfold Window.left at enough
    exact (by omega : window.cursor.position + length ≤ window.buffer.length)
  rest := by
    change window.cursor.rest.drop length = window.buffer.drop (window.cursor.position + length)
    rw [within.rest, List.drop_drop]

/-- Bytes that are left can be a buffer of their own. -/
theorem Within.part (within : window.Within bytes) {length : Nat} (enough : length ≤ window.left) :
    (ofCursor ⟨slice bytes window.cursor.offset length, 0, window.cursor.offset⟩).Within bytes := by
  have inside : window.cursor.offset + length ≤ bytes.length := by
    have := within.position
    have := within.inside
    unfold Window.left at enough
    unfold Cursor.offset
    omega
  have whole := length_slice inside
  exact
    { buffer := by rw [ofCursor, whole]
      inside := by rw [ofCursor, whole]; exact inside
      position := Nat.zero_le _
      rest := rfl }

/-- A cursor does not leave the outermost buffer. -/
theorem Within.offset_le (within : window.Within bytes) : window.cursor.offset ≤ bytes.length :=
  Nat.le_trans (Nat.add_le_add_left within.position _) within.inside

/-- Sums of words are those of the numbers while they fit. -/
theorem toNat_toUInt64_add {first : Nat} {second : UInt64} (fits : first + second.toNat < 2 ^ 64) :
    (first.toUInt64 + second).toNat = first + second.toNat := by
  have word : first.toUInt64.toNat = first := by
    rw [Nat.toUInt64_eq, UInt64.toNat_ofNat', Nat.mod_eq_of_lt (by omega)]
  rw [UInt64.toNat_add, word, Nat.mod_eq_of_lt fits]

/-- In a buffer that can be addressed, places of cursors can be added up without overflow. -/
theorem Within.addressable (within : window.Within bytes) (few : bytes.length < 2 ^ 64) :
    window.Addressable := by
  have position := within.position
  have inside := within.inside
  have word : window.cursor.position.toUInt64.toNat = window.cursor.position := by
    rw [Nat.toUInt64_eq, UInt64.toNat_ofNat', Nat.mod_eq_of_lt (by omega)]
  constructor
  · rw [toNat_toUInt64_add (by omega), word]
  · intro length enough
    unfold Window.left at enough
    exact toNat_toUInt64_add (by omega)

end Window

/-! ## Readers that work in place -/

/-- The sum of two words of 64 bits, if it is one. -/
def checkedAdd (first second : Nat) : Option Nat :=
  if first + second < 2 ^ 64 then some (first + second) else none

/-- Readers that move a window in place. A failure leaves the window where it has come to. -/
abbrev InPlace : Type → Type := ExceptT Error (StateM Window)

namespace InPlace

/-- Takes the next bytes. -/
def bytes (length : Nat) : InPlace (List UInt8) := do
  let window ← get
  let ⟨_, position, base⟩ := window.cursor
  match (checkedAdd position length).filter (· ≤ window.buffer.length) with
  | some stop =>
    set { window with cursor := ⟨window.buffer.drop stop, stop, base⟩ }
    return slice window.buffer position (stop - position)
  | none => throw (.format (.unexpectedEnd (base + position) length))

/-- Reads a number. -/
def number (format : NumberFormat) : InPlace Int := do
  let raw ← bytes format.width
  return format.value raw

/-- Passes over bytes. -/
def skip (length : Nat) : InPlace Unit := do
  let _ ← bytes length
  return ()

/-- Splits off the next bytes as a buffer of their own. -/
def sub (length : Nat) : InPlace Window := do
  let base := (← get).cursor.offset
  let buffer ← bytes length
  return .ofCursor ⟨buffer, 0, base⟩

/-- The second of two readers starts in the window that the first has left, and the window of a
failure is the one that it has come to. -/
theorem bind_apply {α β : Type} (reader : InPlace α) (next : α → InPlace β) (window : Window) :
    (reader >>= next) window =
      match reader window with
      | (.ok value, moved) => next value moved
      | (.error failure, moved) => (.error failure, moved) := by
  change ExceptT.bindCont next (reader window).1 (reader window).2 = _
  obtain ⟨outcome, moved⟩ := reader window
  cases outcome <;> rfl

/-- Taking bytes, told without the steps that it takes. -/
theorem bytes_eq (length : Nat) (window : Window) :
    bytes length window =
      match (checkedAdd window.cursor.position length).filter (· ≤ window.buffer.length) with
      | some stop =>
        (.ok (slice window.buffer window.cursor.position (stop - window.cursor.position)),
          { window with cursor := ⟨window.buffer.drop stop, stop, window.cursor.base⟩ })
      | none => (.error (.format (.unexpectedEnd window.cursor.offset length)), window) := by
  rw [bytes, bind_apply]
  change (match (checkedAdd window.cursor.position length).filter (· ≤ window.buffer.length) with
    | some stop => _
    | none => _ : InPlace (List UInt8)) window = _
  cases (checkedAdd window.cursor.position length).filter (· ≤ window.buffer.length) <;> rfl

/-- Bytes are taken when enough are left, and the window moves only then. -/
theorem bytes_apply {window : Window} {whole : List UInt8} (within : window.Within whole)
    (few : whole.length < 2 ^ 64) (length : Nat) :
    bytes length window =
      if length ≤ window.left then
        (.ok (slice whole window.cursor.offset length), window.advance length)
      else (.error (.format (.unexpectedEnd window.cursor.offset length)), window) := by
  have position := within.position
  have inside := within.inside
  -- the end of the bytes is a word and inside the buffer exactly if enough bytes are left
  by_cases enough : length ≤ window.left
  · have stop : (checkedAdd window.cursor.position length).filter (· ≤ window.buffer.length) =
        some (window.cursor.position + length) := by
      unfold Window.left at enough
      rw [checkedAdd, if_pos (by omega), Option.filter_some, if_pos (decide_eq_true (by omega))]
    have moved : window.buffer.drop (window.cursor.position + length) =
        window.cursor.rest.drop length := by
      rw [within.rest, List.drop_drop]
    rw [if_pos enough, ← within.slice_buffer enough, bytes_eq, stop]
    dsimp only
    rw [moved, Nat.add_sub_cancel_left]
    rfl
  · have stop : (checkedAdd window.cursor.position length).filter (· ≤ window.buffer.length) =
        none := by
      unfold Window.left at enough
      refine Option.filter_eq_none_iff.2 fun stop found fits => ?_
      unfold checkedAdd at found
      split at found
      · cases found
        have := of_decide_eq_true fits
        omega
      · cases found
    rw [if_neg enough, bytes_eq, stop]

end InPlace

/-! ## Commands -/

/-- Ways to ask a cursor for the next bytes. -/
inductive Request where
  | number (format : NumberFormat)
  | bytes (length : Nat)
  | skip (length : Nat)
  | sub (length : Nat)
  deriving DecidableEq, Repr

/-- Steps of a program of reads. -/
inductive Command where
  | ask (request : Request)
  | clone
  | pop
  deriving DecidableEq, Repr

/-- What a step gives back. -/
inductive Reply where
  | nothing
  | number (value : Int)
  | bytes (bytes : List UInt8)
  deriving DecidableEq, Repr

/-- The cursors of a program of reads. There is always one on top. -/
structure CursorStack where
  top : Window
  below : List Window
  deriving DecidableEq, Repr

namespace Request

/-- How many bytes are asked for. -/
def length : Request → Nat
  | number format => format.width
  | bytes length | skip length | sub length => length

/-- What is given back for the bytes that were asked for. -/
def reply (taken : List UInt8) : Request → Reply
  | number format => .number (format.value taken)
  | bytes _ => .bytes taken
  | skip _ | sub _ => .nothing

/-- Asks a window, and gives the window that is split off, if any. -/
def perform : Request → InPlace (Reply × Option Window)
  | number format => do
    let value ← InPlace.number format
    return (.number value, none)
  | bytes length => do
    let taken ← InPlace.bytes length
    return (.bytes taken, none)
  | skip length => do
    InPlace.skip length
    return (.nothing, none)
  | sub length => do
    let part ← InPlace.sub length
    return (.nothing, some part)

/-- The window that is split off with the bytes that were asked for. -/
def part (taken : List UInt8) (window : Window) : Request → Option Window
  | sub _ => some (.ofCursor ⟨taken, 0, window.cursor.offset⟩)
  | _ => none

/-- Whatever is asked for, the window moves once, when the bytes are taken. -/
theorem perform_eq (request : Request) (window : Window) :
    request.perform window =
      match InPlace.bytes request.length window with
      | (.ok taken, next) => (.ok (request.reply taken, request.part taken window), next)
      | (.error failure, next) => (.error failure, next) := by
  -- every request takes bytes in one place and then only computes
  cases request with
  | number format =>
    rw [perform, InPlace.number, bind_assoc, InPlace.bind_apply]
    dsimp only [length]
    rcases InPlace.bytes format.width window with ⟨failure | taken, next⟩ <;> rfl
  | bytes size =>
    rw [perform, InPlace.bind_apply]
    dsimp only [length]
    rcases InPlace.bytes size window with ⟨failure | taken, next⟩ <;> rfl
  | skip size =>
    rw [perform, InPlace.skip, bind_assoc, InPlace.bind_apply]
    dsimp only [length]
    rcases InPlace.bytes size window with ⟨failure | taken, next⟩ <;> rfl
  | sub size =>
    rw [perform, InPlace.sub, bind_assoc, InPlace.bind_apply]
    change (InPlace.bytes size >>= _ >>= _) window = _
    rw [bind_assoc, InPlace.bind_apply]
    dsimp only [length]
    rcases InPlace.bytes size window with ⟨failure | taken, next⟩ <;> rfl

/-- The stack after the bytes that were asked for have been taken. -/
def advance (taken : List UInt8) (stack : CursorStack) : Request → CursorStack
  | sub length =>
    ⟨.ofCursor ⟨taken, 0, stack.top.cursor.offset⟩, stack.top.advance length :: stack.below⟩
  | request => ⟨stack.top.advance request.length, stack.below⟩

end Request

namespace CursorStack

/-- The stack that a program starts with. -/
def ofBytes (bytes : List UInt8) : CursorStack := ⟨.ofCursor (.ofBytes bytes), []⟩

/-- All cursors, the one on top first. -/
def windows (stack : CursorStack) : List Window := stack.top :: stack.below

/-- The stack with the cursor on top at another place of its buffer. -/
def moveTo (stack : CursorStack) (cursor : Cursor) : CursorStack :=
  ⟨{ stack.top with cursor }, stack.below⟩

/-- Asks the reader of the cursor on top, which has no cursor to give when it fails. -/
def ask (stack : CursorStack) : Request → Except Error (Reply × CursorStack)
  | .number format => do
    let (value, cursor) ← format.read stack.top.cursor
    return (.number value, stack.moveTo cursor)
  | .bytes length => do
    let (taken, cursor) ← Read.bytes length stack.top.cursor
    return (.bytes taken, stack.moveTo cursor)
  | .skip length => do
    let (_, cursor) ← Read.skip length stack.top.cursor
    return (.nothing, stack.moveTo cursor)
  | .sub length => do
    let (part, cursor) ← Read.sub length stack.top.cursor
    return (.nothing, ⟨.ofCursor part, { stack.top with cursor } :: stack.below⟩)

/-- Carries out a command; the last cursor is not removed. -/
def step (stack : CursorStack) : Command → Except Error Reply × CursorStack
  | .ask request =>
    match request.perform stack.top with
    | (.ok (reply, none), top) => (.ok reply, ⟨top, stack.below⟩)
    | (.ok (reply, some part), top) => (.ok reply, ⟨part, top :: stack.below⟩)
    | (.error failure, top) => (.error failure, ⟨top, stack.below⟩)
  | .clone => (.ok .nothing, ⟨stack.top, stack.windows⟩)
  | .pop =>
    match stack.below with
    | next :: others => (.ok .nothing, ⟨next, others⟩)
    | [] => (.ok .nothing, stack)

/-- The stack after some commands. -/
def run (stack : CursorStack) (commands : List Command) : CursorStack :=
  commands.foldl (fun stack command => (stack.step command).2) stack

variable {bytes : List UInt8} {stack : CursorStack}

/-- Whatever is asked for, the bytes are taken once, and a failure is that of taking them. -/
theorem ask_eq_take (stack : CursorStack) (request : Request) :
    stack.ask request =
      (fun step => (request.reply step.1, request.advance step.1 stack)) <$>
        stack.top.cursor.take request.length := by
  cases request with
  | number format =>
    dsimp only [ask, Request.length]
    rw [NumberFormat.read_apply, Cursor.take_eq]
    split <;> rfl
  | bytes length =>
    dsimp only [ask, Request.length, Read.bytes]
    rw [Cursor.take_eq]
    split <;> rfl
  | skip length =>
    have skipped : Read.skip length stack.top.cursor =
        (fun step => ((), step.2)) <$> stack.top.cursor.take length := Read.map_apply _ _ _
    dsimp only [ask, Request.length]
    rw [skipped, Cursor.take_eq]
    split <;> rfl
  | sub length =>
    have part : Read.sub length stack.top.cursor =
        (fun step => (⟨step.1, 0, stack.top.cursor.offset⟩, step.2)) <$>
          stack.top.cursor.take length :=
      Read.map_apply (fun taken => (⟨taken, 0, stack.top.cursor.offset⟩ : Cursor)) _ _
    dsimp only [ask, Request.length]
    rw [part, Cursor.take_eq]
    split <;> rfl

/-- What asking does, told from the outermost buffer. -/
theorem step_ask (within : stack.top.Within bytes) (few : bytes.length < 2 ^ 64)
    (request : Request) :
    stack.step (.ask request) =
      if request.length ≤ stack.top.left then
        (.ok (request.reply (slice bytes stack.top.cursor.offset request.length)),
          request.advance (slice bytes stack.top.cursor.offset request.length) stack)
      else (.error (.format (.unexpectedEnd stack.top.cursor.offset request.length)), stack) := by
  unfold step
  dsimp only
  rw [Request.perform_eq, InPlace.bytes_apply within few]
  by_cases enough : request.length ≤ stack.top.left
  · rw [if_pos enough, if_pos enough]
    cases request <;> rfl
  · rw [if_neg enough, if_neg enough]

/-- Working in place does what the reader of the cursor does: after a success the cursors are those
that it gives, and after a failure they are the same as before. -/
theorem step_eq_ask (within : stack.top.Within bytes) (few : bytes.length < 2 ^ 64)
    (request : Request) :
    stack.step (.ask request) =
      match stack.ask request with
      | .ok (reply, next) => (.ok reply, next)
      | .error failure => (.error failure, stack) := by
  rw [step_ask within few, ask_eq_take, within.take]
  by_cases enough : request.length ≤ stack.top.left
  · rw [if_pos enough, if_pos enough]
    rfl
  · rw [if_neg enough, if_neg enough]
    rfl

/-! ## Whole programs -/

/-- All cursors stand in parts of the outermost buffer. -/
def Within (bytes : List UInt8) (stack : CursorStack) : Prop :=
  ∀ window ∈ stack.windows, window.Within bytes

/-- The cursor on top is one of the cursors. -/
theorem Within.top (within : stack.Within bytes) : stack.top.Within bytes :=
  within _ List.mem_cons_self

/-- The cursors beneath are among the cursors. -/
theorem Within.below (within : stack.Within bytes) : ∀ window ∈ stack.below, window.Within bytes :=
  fun _ listed => within _ (List.mem_cons_of_mem _ listed)

/-- Taking bytes that are left keeps all cursors in parts of the outermost buffer. -/
theorem Within.advance (within : stack.Within bytes) {request : Request}
    (enough : request.length ≤ stack.top.left) :
    (request.advance (slice bytes stack.top.cursor.offset request.length) stack).Within bytes := by
  have moved := within.top.advance enough
  cases request with
  | sub length =>
    exact List.forall_mem_cons.2
      ⟨within.top.part enough, List.forall_mem_cons.2 ⟨moved, within.below⟩⟩
  | number | bytes | skip => exact List.forall_mem_cons.2 ⟨moved, within.below⟩

/-- A command keeps all cursors in parts of the outermost buffer. -/
theorem Within.step (within : stack.Within bytes) (few : bytes.length < 2 ^ 64)
    (command : Command) : (stack.step command).2.Within bytes := by
  cases command with
  | ask request =>
    rw [step_ask within.top few]
    split
    · next enough => exact within.advance enough
    · exact within
  | clone => exact List.forall_mem_cons.2 ⟨within.top, within⟩
  | pop =>
    unfold CursorStack.step
    dsimp only
    split
    · next next others beneath =>
      have below := within.below
      rw [beneath] at below
      exact below
    · exact within

/-- A program keeps all cursors in parts of the outermost buffer. -/
theorem run_within (within : stack.Within bytes) (few : bytes.length < 2 ^ 64)
    (commands : List Command) : (stack.run commands).Within bytes := by
  induction commands generalizing stack with
  | nil => exact within
  | cons command commands induction => exact induction (within.step few command)

/-- A program starts in the outermost buffer. -/
theorem within_ofBytes (bytes : List UInt8) : (ofBytes bytes).Within bytes :=
  List.forall_mem_cons.2 ⟨Window.within_ofBytes bytes, List.forall_mem_nil _⟩

/-- A command leaves what is beneath the cursor on top as it is, puts a cursor on it or takes one
from it. -/
theorem step_below (stack : CursorStack) (command : Command) :
    (stack.step command).2.below = stack.below ∨
      (∃ window, (stack.step command).2.below = window :: stack.below) ∨
      ∃ window, stack.below = window :: (stack.step command).2.below := by
  cases command with
  | ask request =>
    unfold step
    dsimp only
    obtain ⟨failure | ⟨reply, none | part⟩, top⟩ := request.perform stack.top
    · exact .inl rfl
    · exact .inl rfl
    · exact .inr (.inl ⟨_, rfl⟩)
  | clone => exact .inr (.inl ⟨_, rfl⟩)
  | pop =>
    unfold step
    dsimp only
    split
    · next window others beneath => exact .inr (.inr ⟨window, beneath⟩)
    · exact .inl rfl

/-- Cursors beneath stay as they are when a command does not reach down to them. -/
theorem suffix_step {floor : List Window} {command : Command} (beneath : floor <:+ stack.below)
    (stays : floor.length ≤ (stack.step command).2.below.length) :
    floor <:+ (stack.step command).2.below := by
  obtain same | ⟨window, more⟩ | ⟨window, less⟩ := stack.step_below command
  · rw [same]
    exact beneath
  · rw [more]
    exact beneath.trans (List.suffix_cons _ _)
  · refine List.suffix_of_suffix_length_le beneath ?_ stays
    rw [less]
    exact List.suffix_cons _ _

/-- Cursors beneath stay as they are through a program that never reaches down to them. -/
theorem suffix_run {floor : List Window} {commands : List Command} (beneath : floor <:+ stack.below)
    (stays : ∀ front, front <+: commands → floor.length ≤ (stack.run front).below.length) :
    floor <:+ (stack.run commands).below := by
  induction commands generalizing stack with
  | nil => exact beneath
  | cons command commands induction =>
    have first := suffix_step beneath (stays [command] (List.prefix_append [command] commands))
    refine induction first fun front isFront => stays (command :: front) ?_
    exact List.prefix_cons_inj command |>.2 isFront

/-- The program does not remove the cursor that is on top when it starts. -/
def Keeps (stack : CursorStack) (commands : List Command) : Prop :=
  ∀ front, front <+: commands → stack.below.length ≤ (stack.run front).below.length

/-- What holds of the cursors over a buffer, and of what is done with them next. -/
structure Disciplined (bytes : List UInt8) (stack : CursorStack) : Prop where
  within : ∀ window ∈ stack.windows, window.Within bytes
  offset : ∀ window ∈ stack.windows, window.cursor.base + window.cursor.position ≤ bytes.length
  addressable : ∀ window ∈ stack.windows, window.Addressable
  /-- Asking gives the bytes at the place of the cursor and moves it behind them; or there are too
  few left, and it fails, says where, and changes nothing. -/
  ask : ∀ request, stack.step (.ask request) =
    if request.length ≤ stack.top.left then
      let taken :=
        slice bytes (stack.top.cursor.base + stack.top.cursor.position) request.length
      (.ok (request.reply taken), request.advance taken stack)
    else
      (.error (.format (.unexpectedEnd (stack.top.cursor.base + stack.top.cursor.position)
        request.length)), stack)
  /-- Asking in place does what the reader of the cursor does, and a failure of it moves no
  cursor. -/
  reads : ∀ request, stack.step (.ask request) =
    match stack.ask request with
    | .ok (reply, next) => (.ok reply, next)
    | .error failure => (.error failure, stack)
  clone : stack.step .clone = (.ok .nothing, ⟨stack.top, stack.windows⟩)
  pop : ∀ next others, stack.below = next :: others →
    stack.step .pop = (.ok .nothing, ⟨next, others⟩)
  /-- What is done with the cursor on top, and with those that are put on it, leaves the others as
  they are. -/
  beneath : ∀ commands, stack.Keeps commands → stack.below <:+ (stack.run commands).below

/-- A program of reads over a buffer that can be addressed. -/
theorem run_disciplined (bytes : List UInt8) (few : bytes.length < 2 ^ 64)
    (commands : List Command) : ((ofBytes bytes).run commands).Disciplined bytes := by
  have within := run_within (within_ofBytes bytes) few commands
  generalize (ofBytes bytes).run commands = stack at within
  exact
    { within
      offset := fun window listed => (within window listed).offset_le
      addressable := fun window listed => (within window listed).addressable few
      ask := step_ask within.top few
      reads := step_eq_ask within.top few
      clone := rfl
      pop := by
        intro next others beneath
        unfold step
        dsimp only
        rw [beneath]
      beneath := fun commands keeps => suffix_run List.suffix_rfl keeps }

/-- Two bytes are asked for where one is left in a part of the buffer. -/
theorem run_disciplined_overrun :
    let bytes : List UInt8 := [0, 1, 2, 3, 4]
    let stack := (ofBytes bytes).run [.ask (.skip 1), .ask (.sub 3), .ask (.number .i16)]
    bytes.length < 2 ^ 64 ∧ stack.below.map (·.cursor.position) = [4] ∧ stack.top.left = 1 ∧
      stack.step (.ask (.number .u16)) = (.error (.format (.unexpectedEnd 3 2)), stack) := by
  intro bytes stack
  have few : bytes.length < 2 ^ 64 := by decide
  refine ⟨few, by decide, by decide, ?_⟩
  refine ((run_disciplined bytes few _).ask (.number .u16)).trans ?_
  rw [if_neg (by decide)]
  rfl

end CursorStack

end ClassLowering
