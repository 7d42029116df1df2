import ClassLowering.Bytes.Cursor

/-! # Instructions of a code array

A code array is a sequence of instructions without gaps: a code byte, possibly behind a `wide`
operation, and the operand of its shape. `Instruction.readAll` reads a whole buffer; it ends
because every instruction consumes at least its code byte (`Instruction.consumes_read`). -/

namespace ClassLowering.Bytecode

open Read

/-- The operand of an instruction. -/
inductive Operand where
  /-- No operand. -/
  | simple
  /-- A constant, a slot or a pool index. -/
  | oneValue (value : Int32)
  /-- A slot and a constant. -/
  | twoValue (first second : Int32)
  /-- A displacement from the instruction's own offset. -/
  | branch (displacement : Int32)
  /-- A pool index and one byte more. -/
  | valueExtra (value : UInt16) (extra : UInt8)
  deriving DecidableEq, Repr

/-- One instruction of a code array. -/
structure Instruction where
  operation : Operation
  /-- The offset of the first byte, that of the `wide` operation if there is one. -/
  offset : UInt32
  operand : Operand
  /-- Whether a `wide` operation stands in front. -/
  wide : Bool
  deriving DecidableEq, Repr

namespace Operand

/-- Reads one value, widened or not; a pushed byte is signed and never widened. -/
def readOneValue (operation : Operation) (wide : Bool) : Read Int32 :=
  if operation = .bytePush then Int8.toInt32 <$> i8
  else if wide then (fun value => value.toUInt32.toInt32) <$> u16
  else (fun value => value.toUInt32.toInt32) <$> u8

/-- Reads one two-byte value; only a pushed integer is signed. -/
def readWideOneValue (operation : Operation) : Read Int32 :=
  if operation = .shortPush then Int16.toInt32 <$> i16
  else (fun value => value.toUInt32.toInt32) <$> u16

/-- Reads a slot and a signed constant. -/
def readTwoValue (wide : Bool) : Read Operand :=
  if wide then do
    let slot ← u16
    let constant ← i16
    return .twoValue slot.toUInt32.toInt32 constant.toInt32
  else do
    let slot ← u8
    let constant ← i8
    return .twoValue slot.toUInt32.toInt32 constant.toInt32

/-- Reads a displacement of four bytes for the far jumps and of two bytes otherwise. -/
def readDisplacement (operation : Operation) : Read Int32 :=
  if operation = .gotoWide ∨ operation = .jsrWide then i32 else Int16.toInt32 <$> i16

/-- Reads a pool index and one byte more; invocations have a filler byte behind them. -/
def readValueExtra (operation : Operation) : Read Operand := do
  let value ← u16
  let extra ← u8
  skip (if operation = .multiNewArray then 0 else 1)
  return .valueExtra value extra

/-- Reads the operand of an operation whose instruction starts at `offset`. -/
def read (operation : Operation) (offset : UInt32) (wide : Bool) : Read Operand :=
  match operation.shape with
  | .simple => pure .simple
  | .oneValue => oneValue <$> readOneValue operation wide
  | .wideOneValue => oneValue <$> readWideOneValue operation
  | .twoValue => readTwoValue wide
  | .branch => branch <$> readDisplacement operation
  | .valueExtra => readValueExtra operation
  | .table => fail (.unsupported (.jumpTable operation offset))

/-- An operand may have no bytes. -/
theorem consumes_read (operation : Operation) (offset : UInt32) (wide : Bool) :
    Consumes 0 (read operation offset wide) := by
  unfold read
  split
  · exact consumes_pure _
  · refine Consumes.map ?_ _
    unfold readOneValue
    split
    · exact (consumes_i8.map _).mono (by omega)
    · split
      · exact (consumes_u16.map _).mono (by omega)
      · exact (consumes_u8.map _).mono (by omega)
  · refine Consumes.map ?_ _
    unfold readWideOneValue
    split
    · exact (consumes_i16.map _).mono (by omega)
    · exact (consumes_u16.map _).mono (by omega)
  · unfold readTwoValue
    split
    · exact (consumes_u16.bind fun _ => consumes_i16.bind fun _ => consumes_pure _).mono (by omega)
    · exact (consumes_u8.bind fun _ => consumes_i8.bind fun _ => consumes_pure _).mono (by omega)
  · refine Consumes.map ?_ _
    unfold readDisplacement
    split
    · exact consumes_i32.mono (by omega)
    · exact (consumes_i16.map _).mono (by omega)
  · exact (consumes_u16.bind fun _ => consumes_u8.bind fun _ =>
      ((consumes_bytes _).map _).bind fun _ => consumes_pure _).mono (by omega)
  · exact consumes_fail 0 _

end Operand

namespace Instruction

/-- The single value of an operand that has one. -/
def value? (instruction : Instruction) : Option Int32 :=
  match instruction.operand with
  | .oneValue value => some value
  | .valueExtra value _ => some value.toUInt32.toInt32
  | _ => none

/-- The offset that a branch leads to, reduced to 32 bits. -/
def branchTarget? (instruction : Instruction) : Option UInt32 :=
  match instruction.operand with
  | .branch displacement => some (instruction.offset + displacement.toUInt32)
  | _ => none

/-- The operand as a pool index or slot, zero if it has no single value. -/
def index (instruction : Instruction) : UInt16 :=
  ((instruction.value?).getD 0).toUInt32.toUInt16

/-- Reads a code byte. -/
def readOperation : Read Operation := Operation.ofCode <$> u8

/-- Reads one instruction. -/
def read : Read Instruction := do
  let start ← get
  let offset := start.position.toUInt32
  let operation ← readOperation
  if operation = .wide then
    let widened ← readOperation
    if widened = .wide then
      fail (.unsupported (.wideRecursion offset))
    else
      return ⟨widened, offset, ← Operand.read widened offset true, true⟩
  else
    return ⟨operation, offset, ← Operand.read operation offset false, false⟩

/-- An operation has a byte of its own. -/
theorem consumes_readOperation : Consumes 1 readOperation := consumes_u8.map _

/-- An instruction is at least as long as its operation, so reading one after the other ends. -/
theorem consumes_read : Consumes 1 read := by
  refine (consumes_get.bind fun start => consumes_readOperation.bind fun operation => ?_).mono
    (Nat.le_refl (0 + (1 + 0)))
  split
  · refine (consumes_readOperation.bind fun widened => ?_).mono (Nat.zero_le (1 + 0))
    split
    · exact consumes_fail 0 _
    · exact (Operand.consumes_read _ _ _).bind fun _ => consumes_pure _
  · exact (Operand.consumes_read _ _ _).bind fun _ => consumes_pure _

/-- Reads instructions until nothing is ahead. -/
def readAll (cursor : Cursor) : Except Error (List Instruction) :=
  if cursor.isEmpty then
    .ok []
  else
    match _step : read cursor with
    | .error failure => .error failure
    | .ok (instruction, next) => do
      let others ← readAll next
      return instruction :: others
termination_by cursor.rest.length
decreasing_by exact consumes_read cursor instruction next _step

end Instruction

end ClassLowering.Bytecode
