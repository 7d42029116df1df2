import ClassLowering.Proofs.Encoding.Instructions

/-! # Reading elsewhere

What a reader does depends on the bytes ahead, and very little on where it stands: the place shows
in the cursor that is left, in failures because the buffer ends, and in the offsets of instructions.
A `Motion` takes cursors elsewhere and says how failures name places there. `Read.Uniform reader`
says that a reader is the same after every motion; all readers of numbers and of operands are
(`Operand.uniform_read`). Reading an instruction is the same up to the offset that it is given
(`Instruction.readFrom_carry`). -/

namespace ClassLowering

open Bytecode (Instruction Operand Operation)
open Read

variable {α β : Type}

/-! ## Motions -/

/-- The outcome of a reader when cursors, failures and values are all replaced. -/
def carryStep (cursor : Cursor → Cursor) (failure : Error → Error) (value : α → α) :
    Except Error (α × Cursor) → Except Error (α × Cursor)
  | .ok (found, stop) => .ok (value found, cursor stop)
  | .error cause => .error (failure cause)

/-- Cursors are taken elsewhere, and bytes are taken there as they are here. -/
structure Motion where
  cursor : Cursor → Cursor
  /-- How a failure is told elsewhere. -/
  failure : Error → Error
  take_cursor : ∀ start length,
    (cursor start).take length = carryStep cursor failure id (start.take length)

namespace Motion

/-- The outcome of a reader elsewhere, if its values have to be replaced, too. -/
def carry (motion : Motion) (value : α → α) :
    Except Error (α × Cursor) → Except Error (α × Cursor) :=
  carryStep motion.cursor motion.failure value

variable (motion : Motion)

/-- A value is carried together with its cursor. -/
@[simp] theorem carry_ok (value : α → α) (found : α) (stop : Cursor) :
    motion.carry value (.ok (found, stop)) = .ok (value found, motion.cursor stop) := rfl

/-- A failure is told as it is elsewhere. -/
@[simp] theorem carry_error (value : α → α) (cause : Error) :
    motion.carry value (.error cause) = .error (motion.failure cause) := rfl

/-- Two readers one after the other are carried along if each of them is. -/
theorem carry_bind {reader moved : Read α} {next nextMoved : α → Read β} {value : α → α}
    {result : β → β} {start : Cursor}
    (first : moved (motion.cursor start) = motion.carry value (reader start))
    (second : ∀ found middle, reader start = .ok (found, middle) →
      nextMoved (value found) (motion.cursor middle) = motion.carry result (next found middle)) :
    (moved >>= nextMoved) (motion.cursor start) =
      motion.carry result ((reader >>= next) start) := by
  rw [bind_apply, bind_apply, first]
  cases step : reader start with
  | error cause => rfl
  | ok pair =>
    obtain ⟨found, middle⟩ := pair
    exact second found middle step

/-- Goes nowhere, and tells failures as one likes unless the buffer ends. -/
def retell (told : Error) : Motion where
  cursor := id
  failure
    | .format (.unexpectedEnd offset needed) => .format (.unexpectedEnd offset needed)
    | _ => told
  take_cursor start length := by
    rw [id, Cursor.take_eq]
    split <;> rfl

end Motion

/-! ## Readers that are the same everywhere -/

namespace Read

/-- The reader does the same elsewhere, whatever the motion. -/
def Uniform (reader : Read α) : Prop :=
  ∀ (motion : Motion) (start : Cursor),
    reader (motion.cursor start) = motion.carry id (reader start)

/-- What reads nothing is the same everywhere. -/
theorem uniform_pure (value : α) : Uniform (pure value : Read α) := fun _ _ => rfl

/-- Bytes are the same everywhere. -/
theorem uniform_bytes (length : Nat) : Uniform (bytes length) :=
  fun motion start => motion.take_cursor start length

/-- Readers in a row are the same everywhere if each is. -/
theorem Uniform.bind {reader : Read α} {next : α → Read β} (first : Uniform reader)
    (second : ∀ value, Uniform (next value)) : Uniform (reader >>= next) := by
  intro motion start
  exact motion.carry_bind (first motion start) fun found middle _ => second found motion middle

/-- What is made of a result is the same everywhere if the result is. -/
theorem Uniform.map {reader : Read α} (uniform : Uniform reader) (f : α → β) :
    Uniform (f <$> reader) := by
  rw [← bind_pure_comp]
  exact uniform.bind fun value => uniform_pure (f value)

/-- Either of two readers is the same everywhere if both are. -/
theorem Uniform.ite {condition : Prop} [Decidable condition] {one other : Read α}
    (first : Uniform one) (second : Uniform other) :
    Uniform (if condition then one else other) := by
  split
  · exact first
  · exact second

/-- Numbers are the same everywhere. -/
theorem uniform_number (width : Nat) : Uniform (number width) := (uniform_bytes width).map _

/-- Unsigned bytes are the same everywhere. -/
theorem uniform_u8 : Uniform u8 := (uniform_number 1).map _

/-- Unsigned 16-bit integers are the same everywhere. -/
theorem uniform_u16 : Uniform u16 := (uniform_number 2).map _

/-- Unsigned 32-bit integers are the same everywhere. -/
theorem uniform_u32 : Uniform u32 := (uniform_number 4).map _

/-- Signed bytes are the same everywhere. -/
theorem uniform_i8 : Uniform i8 := uniform_u8.map _

/-- Signed 16-bit integers are the same everywhere. -/
theorem uniform_i16 : Uniform i16 := uniform_u16.map _

/-- A reader that is the same everywhere fails only because the buffer ends. -/
theorem Uniform.ends {reader : Read α} (uniform : Uniform reader) {start : Cursor} {cause : Error}
    (failed : reader start = .error cause) :
    ∃ offset needed, cause = .format (.unexpectedEnd offset needed) := by
  have same (told : Error) : cause = (Motion.retell told).failure cause := by
    have carried := uniform (.retell told) start
    rw [show (Motion.retell told).cursor start = start from rfl, failed,
      Motion.carry_error] at carried
    exact Except.error.inj carried
  -- any other failure would be equal to two different ones
  have first := same (.format .absentConstant)
  have second := same (.unsupported (.wideRecursion 0))
  simp only [Motion.retell] at first second
  split at first
  · exact ⟨_, _, rfl⟩
  · rw [first] at second
    simp at second

end Read

/-! ## Operands and instructions -/

namespace Bytecode

/-- An operand is read in the same way everywhere, unless it is a table. -/
theorem Operand.uniform_read {operation : Operation} (offset : UInt32) (wide : Bool)
    (plain : operation.shape ≠ .table) : Uniform (Operand.read operation offset wide) := by
  unfold Operand.read
  cases shape : operation.shape with
  | simple => exact uniform_pure _
  | oneValue =>
    exact (Uniform.ite (uniform_i8.map _) (.ite (uniform_u16.map _) (uniform_u8.map _))).map _
  | wideOneValue => exact (Uniform.ite (uniform_i16.map _) (uniform_u16.map _)).map _
  | twoValue =>
    exact .ite (uniform_u16.bind fun _ => uniform_i16.bind fun _ => uniform_pure _)
      (uniform_u8.bind fun _ => uniform_i8.bind fun _ => uniform_pure _)
  | branch => exact (Uniform.ite (uniform_u32.map _) (uniform_i16.map _)).map _
  | valueExtra =>
    exact uniform_u16.bind fun _ => uniform_u8.bind fun _ =>
      ((uniform_bytes _).map _).bind fun _ => uniform_pure _
  | table => exact absurd shape plain

/-- The offset of the instruction shows in failures because of a table only. -/
theorem Operand.read_congr {operation : Operation} (offset other : UInt32) (wide : Bool)
    (plain : operation.shape ≠ .table) :
    Operand.read operation offset wide = Operand.read operation other wide := by
  unfold Operand.read
  cases shape : operation.shape with
  | table => exact absurd shape plain
  | _ => rfl

/-- Jump tables are refused before any byte of them is read. -/
theorem Operand.read_of_table {operation : Operation} (offset : UInt32) (wide : Bool)
    (shape : operation.shape = .table) :
    Operand.read operation offset wide = fail (.unsupported (.jumpTable operation offset)) := by
  unfold Operand.read
  rw [shape]

/-- Operations are the same everywhere. -/
theorem Instruction.uniform_readOperation : Uniform readOperation := uniform_u8.map _

section

variable (motion : Motion) {offset moved : UInt32}
  (tables : ∀ operation, motion.failure (.unsupported (.jumpTable operation offset)) =
    .unsupported (.jumpTable operation moved))

include tables

/-- An operand is the same everywhere, but a jump table is refused with the offset that it has
there. -/
theorem Operand.read_carry (operation : Operation) (wide : Bool) (start : Cursor) :
    Operand.read operation moved wide (motion.cursor start) =
      motion.carry id (Operand.read operation offset wide start) := by
  by_cases shape : operation.shape = .table
  · rw [Operand.read_of_table _ _ shape, Operand.read_of_table _ _ shape]
    exact congrArg Except.error (tables operation).symm
  · rw [Operand.read_congr moved offset wide shape]
    exact Operand.uniform_read offset wide shape motion start

/-- An instruction is read elsewhere with the offset that it has there. -/
theorem Instruction.readFrom_carry
    (recursions : motion.failure (.unsupported (.wideRecursion offset)) =
      .unsupported (.wideRecursion moved)) (start : Cursor) :
    readFrom moved (motion.cursor start) =
      motion.carry (fun instruction => { instruction with offset := moved })
        (readFrom offset start) := by
  refine motion.carry_bind (uniform_readOperation motion start) fun operation afterOperation _ => ?_
  by_cases isWide : operation = .wide
  · simp only [id, if_pos isWide]
    refine motion.carry_bind (uniform_readOperation motion afterOperation)
      fun widened afterWidened _ => ?_
    by_cases twice : widened = .wide
    · simp only [id, if_pos twice]
      exact congrArg Except.error recursions.symm
    · simp only [id, if_neg twice]
      exact motion.carry_bind (Operand.read_carry motion tables widened true afterWidened)
        fun operand last _ => rfl
  · simp only [id, if_neg isWide]
    exact motion.carry_bind (Operand.read_carry motion tables operation false afterOperation)
      fun operand last _ => rfl

end

/-- An instruction has the offset that it is read with. -/
theorem Instruction.offset_of_readFrom {offset : UInt32} {start stop : Cursor}
    {instruction : Instruction} (found : readFrom offset start = .ok (instruction, stop)) :
    instruction.offset = offset := by
  obtain ⟨_, ⟨same, -⟩, -⟩ := (recognizes_readFrom offset _ _ _).1 found
  exact same

/-! ## Code arrays -/

namespace Instruction

/-- An instruction that is read is the first of the code array. -/
theorem readAll_of_read {cursor next : Cursor} {instruction : Instruction}
    (found : read cursor = .ok (instruction, next)) :
    readAll cursor = (instruction :: ·) <$> readAll next := by
  have ahead : ¬cursor.isEmpty = true := by
    have consumed := consumes_read cursor instruction next found
    intro empty
    rw [Cursor.isEmpty, List.isEmpty_iff] at empty
    simp [empty] at consumed
  rw [readAll, if_neg ahead]
  split
  · next failed =>
    rw [found] at failed
    cases failed
  · next step =>
    rw [found] at step
    cases step
    rfl

/-- Reading a code array ends with the first instruction that cannot be read. -/
theorem readAll_of_read_error {cursor : Cursor} {cause : Error} (ahead : cursor.rest ≠ [])
    (failed : read cursor = .error cause) : readAll cursor = .error cause := by
  have some : ¬cursor.isEmpty = true := by simpa [Cursor.isEmpty] using ahead
  rw [readAll, if_neg some]
  split
  · next step =>
    rw [failed] at step
    cases step
    rfl
  · next step =>
    rw [failed] at step
    cases step

/-- A code array is read elsewhere if each of its instructions is. -/
theorem readAll_carry (motion : Motion) {value : Instruction → Instruction}
    (same : ∀ start, (motion.cursor start).rest = start.rest)
    (carried : ∀ start, read (motion.cursor start) = motion.carry value (read start))
    (cursor : Cursor) :
    readAll (motion.cursor cursor) =
      ((readAll cursor).map (List.map value)).mapError motion.failure := by
  -- both readers find the same bytes ahead, so they stop and fail at the same step
  fun_induction readAll cursor with
  | case1 cursor empty =>
    have nothing : (motion.cursor cursor).isEmpty = true := by rwa [Cursor.isEmpty, same]
    rw [readAll, if_pos nothing]
    rfl
  | case2 cursor ahead cause step =>
    have some : (motion.cursor cursor).rest ≠ [] := by simpa [Cursor.isEmpty, same] using ahead
    have failed : read (motion.cursor cursor) = .error (motion.failure cause) := by
      rw [carried, step, Motion.carry_error]
    rw [readAll_of_read_error some failed]
    rfl
  | case3 cursor ahead instruction next step induction =>
    have found : read (motion.cursor cursor) = .ok (value instruction, motion.cursor next) := by
      rw [carried, step, Motion.carry_ok]
    rw [readAll_of_read found, induction]
    cases readAll next <;> rfl

end Instruction

end Bytecode

end ClassLowering
