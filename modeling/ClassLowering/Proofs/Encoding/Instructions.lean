import ClassLowering.Proofs.Encoding.Reading

/-! # Encoding instructions

`Instruction.encode` writes an instruction: a `wide` operation if there is one, the code byte, the
operand at its width, and a zero byte behind invocations that have a filler. Reading a code array
and writing its instructions are inverse to each other (`Instruction.readAll_inverse_encodeAll`),
except that fillers are read whatever they are.

The width of an operand depends on the shape, the operation and the `wide` operation, so it is given
by an `IntegerFormat` in one place for the writer; the readers are then shown to follow it. That one
instruction is read from its own bytes is `Instruction.recognizes_readFrom`; that a code array is
the bytes of its instructions, one after the other, is `Instruction.readAll_eq_ok_iff`. -/

namespace ClassLowering

open Read

/-! ## Integers of a given width -/

/-- A way to write integers: in how many bytes, and whether with a sign. -/
structure IntegerFormat where
  width : Nat
  hasSign : Bool
  deriving DecidableEq, Repr

namespace IntegerFormat

/-- The integers that can be written. -/
def Holds (format : IntegerFormat) (value : Int) : Prop :=
  if format.hasSign then -256 ^ format.width ≤ 2 * value ∧ 2 * value < 256 ^ format.width
  else 0 ≤ value ∧ value < 256 ^ format.width

instance (format : IntegerFormat) (value : Int) : Decidable (format.Holds value) :=
  inferInstanceAs (Decidable (if format.hasSign then _ ∧ _ else _ ∧ _))

/-- The bytes of an integer, in two's complement, the highest first. -/
def encode (format : IntegerFormat) (value : Int) : List UInt8 :=
  bigEndianBytes format.width (value % 256 ^ format.width).toNat

/-- The bytes are those of an integer that can be written. -/
def Writes (format : IntegerFormat) (value : Int32) (bytes : List UInt8) : Prop :=
  format.Holds value.toInt ∧ bytes = format.encode value.toInt

/-- The number of integers that can be written, as an integer. -/
theorem natCast_modulus (format : IntegerFormat) :
    ((256 ^ format.width : Nat) : Int) = 256 ^ format.width := by
  rw [Int.natCast_pow]
  rfl

/-- The integer that is meant by an unsigned number. -/
def meaning (format : IntegerFormat) (number : Nat) : Int :=
  if format.hasSign then Int.bmod number (256 ^ format.width) else number

/-- A number means the one integer that can be written and has it as its remainder. -/
theorem meaning_eq_iff {format : IntegerFormat} {number : Nat} {value : Int}
    (small : number < 256 ^ format.width) :
    format.meaning number = value ↔
      format.Holds value ∧ (value % 256 ^ format.width).toNat = number := by
  have positive : 0 < 256 ^ format.width := Nat.pow_pos (by decide)
  unfold meaning Holds
  rw [← natCast_modulus]
  generalize 256 ^ format.width = modulus at small positive
  -- signed values are balanced remainders, unsigned ones are plain
  split
  · rw [Int.bmod_eq_iff positive]
    constructor
    · rintro ⟨least, greatest, divides⟩
      have remainder : value % modulus = number := by
        rw [Int.emod_eq_emod_iff_emod_sub_eq_zero.2 (Int.emod_eq_zero_of_dvd divides),
          Int.emod_eq_of_lt (by omega) (by omega)]
      exact ⟨by omega, by omega⟩
    · rintro ⟨⟨least, greatest⟩, remainder⟩
      have nonneg := Int.emod_nonneg value (Int.natCast_ne_zero_iff_pos.2 positive)
      refine ⟨by omega, by omega, ?_⟩
      have same : (number : Int) = value % modulus := by omega
      rw [same]
      exact Int.dvd_self_sub_emod
  · constructor
    · rintro rfl
      refine ⟨by omega, ?_⟩
      rw [Int.emod_eq_of_lt (by omega) (by omega), Int.toNat_natCast]
    · rintro ⟨⟨least, greatest⟩, remainder⟩
      rw [Int.emod_eq_of_lt least greatest] at remainder
      omega

end IntegerFormat

/-- Integers are read as they are written, if the number that stands there is taken for what it
means. -/
theorem recognizes_integer (format : IntegerFormat) {f : Nat → Int32}
    (means : ∀ number < 256 ^ format.width, (f number).toInt = format.meaning number) :
    Recognizes format.Writes (f <$> number format.width) := by
  refine ((recognizes_number format.width).map f).congr fun value bytes => ?_
  constructor
  · rintro ⟨number, rfl, small, rfl⟩
    obtain ⟨holds, same⟩ := (IntegerFormat.meaning_eq_iff small).1 (means number small).symm
    exact ⟨holds, by rw [IntegerFormat.encode, same]⟩
  · rintro ⟨holds, rfl⟩
    have small : (value.toInt % 256 ^ format.width).toNat < 256 ^ format.width := by
      have positive : (0 : Int) < 256 ^ format.width := Int.pow_pos (by decide)
      have nonneg := Int.emod_nonneg value.toInt (Int.ne_of_gt positive)
      have less := Int.emod_lt_of_pos value.toInt positive
      have cast := format.natCast_modulus
      omega
    refine ⟨_, ?_, small, rfl⟩
    apply Int32.toInt_inj.1
    rw [means _ small]
    exact (IntegerFormat.meaning_eq_iff small).2 ⟨holds, rfl⟩

/-- A word without sign is small enough to keep its number as an integer. -/
theorem toInt_toInt32_of_lt {word : UInt32} (small : word.toNat < 2 ^ 31) :
    word.toInt32.toInt = word.toNat := by
  change word.toBitVec.toInt = _
  rw [BitVec.toInt_eq_toNat_bmod]
  change (word.toNat : Int).bmod (2 ^ 32) = _
  rw [Int.bmod_eq_of_le (by omega) (by omega)]

/-- A signed byte is read as a word of 32 bits. -/
theorem recognizes_signedByte :
    Recognizes (IntegerFormat.mk 1 true).Writes (Int8.toInt32 <$> i8) := by
  rw [i8, u8, Functor.map_map, Functor.map_map]
  refine recognizes_integer ⟨1, true⟩ fun number small => ?_
  have same : number.toUInt8.toBitVec.toNat = number := by
    rw [UInt8.toNat_toBitVec, Nat.toUInt8_eq, UInt8.toNat_ofNat_of_lt' small]
  rw [Int8.toInt_toInt32, ← Int8.toInt_toBitVec, UInt8.toBitVec_toInt8,
    BitVec.toInt_eq_toNat_bmod, same]
  simp [IntegerFormat.meaning]

/-- A signed pair of bytes is read as a word of 32 bits. -/
theorem recognizes_signedPair :
    Recognizes (IntegerFormat.mk 2 true).Writes (Int16.toInt32 <$> i16) := by
  rw [i16, u16, Functor.map_map, Functor.map_map]
  refine recognizes_integer ⟨2, true⟩ fun number small => ?_
  have same : number.toUInt16.toBitVec.toNat = number := by
    rw [UInt16.toNat_toBitVec, Nat.toUInt16_eq, UInt16.toNat_ofNat_of_lt' small]
  rw [Int16.toInt_toInt32, ← Int16.toInt_toBitVec, UInt16.toBitVec_toInt16,
    BitVec.toInt_eq_toNat_bmod, same]
  simp [IntegerFormat.meaning]

/-- A signed word is read as it is. -/
theorem recognizes_signedWord :
    Recognizes (IntegerFormat.mk 4 true).Writes i32 := by
  rw [i32, u32, Functor.map_map]
  refine recognizes_integer ⟨4, true⟩ fun number small => ?_
  have same : number.toUInt32.toBitVec.toNat = number := by
    rw [UInt32.toNat_toBitVec, Nat.toUInt32_eq, UInt32.toNat_ofNat_of_lt' small]
  rw [← Int32.toInt_toBitVec, UInt32.toBitVec_toInt32, BitVec.toInt_eq_toNat_bmod, same]
  simp [IntegerFormat.meaning]

/-- An unsigned byte is read as a word of 32 bits. -/
theorem recognizes_unsignedByte :
    Recognizes (IntegerFormat.mk 1 false).Writes
      ((fun value => value.toUInt32.toInt32) <$> u8) := by
  rw [u8, Functor.map_map]
  refine recognizes_integer ⟨1, false⟩ fun number small => ?_
  have same : number.toUInt8.toUInt32.toNat = number := by
    rw [UInt8.toNat_toUInt32, Nat.toUInt8_eq, UInt8.toNat_ofNat_of_lt' small]
  dsimp only at small
  rw [toInt_toInt32_of_lt (by omega), same]
  rfl

/-- An unsigned pair of bytes is read as a word of 32 bits. -/
theorem recognizes_unsignedPair :
    Recognizes (IntegerFormat.mk 2 false).Writes
      ((fun value => value.toUInt32.toInt32) <$> u16) := by
  rw [u16, Functor.map_map]
  refine recognizes_integer ⟨2, false⟩ fun number small => ?_
  have same : number.toUInt16.toUInt32.toNat = number := by
    rw [UInt16.toNat_toUInt32, Nat.toUInt16_eq, UInt16.toNat_ofNat_of_lt' small]
  dsimp only at small
  rw [toInt_toInt32_of_lt (by omega), same]
  rfl

namespace Bytecode

/-! ## Encoding -/

namespace Operation

/-- How the single value of an operation is written: a pushed number has a sign and keeps its width,
and every other value has two bytes at most. -/
def valueFormat (operation : Operation) (wide : Bool) : IntegerFormat :=
  if operation = .bytePush then ⟨1, true⟩
  else if operation = .shortPush then ⟨2, true⟩
  else if operation.shape = .wideOneValue ∨ wide = true then ⟨2, false⟩
  else ⟨1, false⟩

/-- How the displacement of a branch is written; far jumps have four bytes. -/
def displacementFormat (operation : Operation) : IntegerFormat :=
  if operation = .gotoWide ∨ operation = .jsrWide then ⟨4, true⟩ else ⟨2, true⟩

/-- The number of bytes behind the operand that mean nothing. -/
def fillers (operation : Operation) : Nat :=
  if operation = .invoke .interface ∨ operation = .invokeDynamic then 1 else 0

/-- Only an operand with a value and an extra byte may have a filler. -/
theorem fillers_eq_zero {operation : Operation} (other : operation.shape ≠ .valueExtra) :
    operation.fillers = 0 := by
  refine if_neg ?_
  rintro (rfl | rfl)
  · exact other rfl
  · exact other rfl

/-- Behind a value and an extra byte there is a filler, except for the dimensions of an array. -/
theorem fillers_of_valueExtra {operation : Operation} (shape : operation.shape = .valueExtra) :
    operation.fillers = if operation = .multiNewArray then 0 else 1 := by
  cases operation with
  | invoke invocation => cases invocation <;> first | rfl | cases shape
  | invokeDynamic | multiNewArray => rfl
  | _ => cases shape

/-- There is one filler at most. -/
theorem fillers_le_one (operation : Operation) : operation.fillers ≤ 1 := by
  unfold fillers
  split <;> decide

end Operation

namespace Operand

/-- How the slot of an increment is written. -/
def slotFormat (wide : Bool) : IntegerFormat := ⟨if wide then 2 else 1, false⟩

/-- How the constant of an increment is written. -/
def constantFormat (wide : Bool) : IntegerFormat := ⟨if wide then 2 else 1, true⟩

/-- The operand has the shape that the operation asks for, and its numbers can be written. -/
def Fits (operation : Operation) (wide : Bool) : Operand → Prop
  | simple => operation.shape = .simple
  | oneValue value =>
    (operation.shape = .oneValue ∨ operation.shape = .wideOneValue) ∧
      (operation.valueFormat wide).Holds value.toInt
  | twoValue slot constant =>
    operation.shape = .twoValue ∧ (slotFormat wide).Holds slot.toInt ∧
      (constantFormat wide).Holds constant.toInt
  | branch displacement =>
    operation.shape = .branch ∧ operation.displacementFormat.Holds displacement.toInt
  | valueExtra _ _ => operation.shape = .valueExtra

instance (operation : Operation) (wide : Bool) (operand : Operand) :
    Decidable (operand.Fits operation wide) :=
  match operand with
  | simple => inferInstanceAs (Decidable (_ = _))
  | oneValue _ => inferInstanceAs (Decidable ((_ ∨ _) ∧ _))
  | twoValue _ _ => inferInstanceAs (Decidable (_ ∧ _ ∧ _))
  | branch _ => inferInstanceAs (Decidable (_ ∧ _))
  | valueExtra _ _ => inferInstanceAs (Decidable (_ = _))

/-- The bytes of an operand. -/
def encode (operation : Operation) (wide : Bool) : Operand → List UInt8
  | simple => []
  | oneValue value => (operation.valueFormat wide).encode value.toInt
  | twoValue slot constant =>
    (slotFormat wide).encode slot.toInt ++ (constantFormat wide).encode constant.toInt
  | branch displacement => operation.displacementFormat.encode displacement.toInt
  | valueExtra value extra => bigEndianBytes 2 value.toNat ++ [extra]

end Operand

namespace Instruction

/-- The instruction is none that widens another one, and its operand can be written. -/
structure Encodable (instruction : Instruction) : Prop where
  operation : instruction.operation ≠ .wide
  operand : instruction.operand.Fits instruction.operation instruction.wide

instance (instruction : Instruction) : Decidable instruction.Encodable :=
  decidable_of_iff (_ ∧ _) ⟨fun ⟨operation, operand⟩ => ⟨operation, operand⟩,
    fun ⟨operation, operand⟩ => ⟨operation, operand⟩⟩

/-- The bytes of an instruction with given bytes behind its operand. -/
def encodeWith (instruction : Instruction) (filler : List UInt8) : List UInt8 :=
  (if instruction.wide then [Operation.wide.code] else []) ++ instruction.operation.code ::
    (instruction.operand.encode instruction.operation instruction.wide ++ filler)

/-- The bytes of an instruction; fillers are zero. -/
def encode (instruction : Instruction) : List UInt8 :=
  instruction.encodeWith (List.replicate instruction.operation.fillers 0)

/-- The bytes of a code array. -/
def encodeAll (instructions : List Instruction) : List UInt8 := instructions.flatMap encode

/-- Every instruction starts where the ones before it end, the first of them at `start`. -/
def RunningOffsets (start : Nat) (instructions : List Instruction) : Prop :=
  ∀ index (inside : index < instructions.length),
    instructions[index].offset.toNat = start + (encodeAll (instructions.take index)).length

instance (start : Nat) (instructions : List Instruction) :
    Decidable (RunningOffsets start instructions) :=
  inferInstanceAs (Decidable (∀ index (_ : index < instructions.length), _ = _))

end Instruction

/-! ## Reading one instruction -/

open Operation (valueFormat displacementFormat)

/-- The value of an operation is read in its format. -/
theorem recognizes_readOneValue {operation : Operation} (shape : operation.shape = .oneValue)
    (wide : Bool) :
    Recognizes (operation.valueFormat wide).Writes (Operand.readOneValue operation wide) := by
  have short : operation ≠ .shortPush := by
    rintro rfl
    cases shape
  unfold Operand.readOneValue valueFormat
  rw [if_neg short, shape]
  by_cases push : operation = .bytePush
  · rw [if_pos push, if_pos push]
    exact recognizes_signedByte
  · rw [if_neg push, if_neg push]
    cases wide with
    | true => exact recognizes_unsignedPair
    | false => exact recognizes_unsignedByte

/-- The value of an operation that has two bytes is read in its format. -/
theorem recognizes_readWideOneValue {operation : Operation}
    (shape : operation.shape = .wideOneValue) (wide : Bool) :
    Recognizes (operation.valueFormat wide).Writes (Operand.readWideOneValue operation) := by
  have long : operation ≠ .bytePush := by
    rintro rfl
    cases shape
  unfold Operand.readWideOneValue valueFormat
  rw [if_neg long]
  by_cases push : operation = .shortPush
  · rw [if_pos push, if_pos push]
    exact recognizes_signedPair
  · rw [if_neg push, if_neg push, if_pos (.inl shape)]
    exact recognizes_unsignedPair

/-- The displacement of a jump is read in its format. -/
theorem recognizes_readDisplacement (operation : Operation) :
    Recognizes operation.displacementFormat.Writes (Operand.readDisplacement operation) := by
  unfold Operand.readDisplacement displacementFormat
  split
  · exact recognizes_signedWord
  · exact recognizes_signedPair

/-- Two numbers that are read one after the other are the parts of an increment. -/
theorem recognizes_twoValue {first second : IntegerFormat} {slotReader constantReader : Read Int32}
    (slots : Recognizes first.Writes slotReader)
    (constants : Recognizes second.Writes constantReader) :
    Recognizes (fun operand bytes => ∃ slot constant, operand = Operand.twoValue slot constant ∧
        (first.Holds slot.toInt ∧ second.Holds constant.toInt) ∧
        bytes = first.encode slot.toInt ++ second.encode constant.toInt)
      (do
        let slot ← slotReader
        let constant ← constantReader
        return .twoValue slot constant) := by
  refine (slots.bind fun slot => constants.bind fun constant => recognizes_pure _).congr
    fun operand bytes => ?_
  constructor
  · rintro ⟨slot, _, _, ⟨slotHolds, rfl⟩, ⟨constant, _, _, ⟨constantHolds, rfl⟩, ⟨rfl, rfl⟩, rfl⟩,
      rfl⟩
    exact ⟨slot, constant, rfl, ⟨slotHolds, constantHolds⟩, by rw [List.append_nil]⟩
  · rintro ⟨slot, constant, rfl, ⟨slotHolds, constantHolds⟩, rfl⟩
    exact ⟨slot, _, _, ⟨slotHolds, rfl⟩, ⟨constant, _, _, ⟨constantHolds, rfl⟩, ⟨rfl, rfl⟩, rfl⟩,
      by rw [List.append_nil]⟩

/-- The slot and the constant of an increment are read in their formats. -/
theorem recognizes_readTwoValue (wide : Bool) :
    Recognizes (fun operand bytes => ∃ slot constant, operand = Operand.twoValue slot constant ∧
        ((Operand.slotFormat wide).Holds slot.toInt ∧
          (Operand.constantFormat wide).Holds constant.toInt) ∧
        bytes = (Operand.slotFormat wide).encode slot.toInt ++
          (Operand.constantFormat wide).encode constant.toInt)
      (Operand.readTwoValue wide) := by
  cases wide with
  | true =>
    have pairs := recognizes_twoValue recognizes_unsignedPair recognizes_signedPair
    simp only [bind_map_left] at pairs
    exact pairs
  | false =>
    have bytes := recognizes_twoValue recognizes_unsignedByte recognizes_signedByte
    simp only [bind_map_left] at bytes
    exact bytes

/-- Bytes that are passed over may be any. -/
theorem recognizes_skip (length : Nat) :
    Recognizes (fun _ bytes => bytes.length = length) (skip length) := by
  have same : skip length = (fun _ => ()) <$> bytes length := rfl
  rw [same]
  refine ((recognizes_bytes length).map _).congr fun value bytes => ?_
  constructor
  · rintro ⟨_, -, whole, rfl⟩
    exact whole
  · intro whole
    exact ⟨bytes, rfl, whole, rfl⟩

/-- A value and an extra byte are read, with any filler behind them. -/
theorem recognizes_readValueExtra (operation : Operation) (shape : operation.shape = .valueExtra) :
    Recognizes (fun operand bytes => ∃ value extra filler,
        operand = Operand.valueExtra value extra ∧
        filler.length = operation.fillers ∧
        bytes = bigEndianBytes 2 value.toNat ++ [extra] ++ filler)
      (Operand.readValueExtra operation) := by
  unfold Operand.readValueExtra
  rw [← Operation.fillers_of_valueExtra shape]
  refine (recognizes_u16.bind fun value => recognizes_u8.bind fun extra =>
    (recognizes_skip operation.fillers).bind fun _ => recognizes_pure _).congr
      fun operand bytes => ?_
  constructor
  · rintro ⟨value, _, _, rfl, ⟨extra, _, _, rfl, ⟨_, filler, _, whole, ⟨rfl, rfl⟩, rfl⟩, rfl⟩, rfl⟩
    exact ⟨value, extra, filler, rfl, whole, by simp⟩
  · rintro ⟨value, extra, filler, rfl, whole, rfl⟩
    exact ⟨value, _, _, rfl,
      ⟨extra, _, _, rfl, ⟨(), filler, _, whole, ⟨rfl, rfl⟩, rfl⟩, rfl⟩, by simp⟩

/-- The operand of an operation is read from its bytes and those behind it that mean nothing. -/
theorem Operand.recognizes_read (operation : Operation) (offset : UInt32) (wide : Bool) :
    Recognizes (fun operand bytes => operand.Fits operation wide ∧
        ∃ filler, filler.length = operation.fillers ∧
          bytes = operand.encode operation wide ++ filler)
      (Operand.read operation offset wide) := by
  unfold Operand.read
  -- an operand that fits is of the kind that the shape asks for, and only one shape has fillers
  cases shape : operation.shape with
  | simple =>
    refine (recognizes_pure _).congr fun operand bytes => ?_
    cases operand <;> simp [Fits, encode, shape, Operation.fillers_eq_zero]
  | oneValue =>
    refine ((recognizes_readOneValue shape wide).map _).congr fun operand bytes => ?_
    cases operand <;> simp [Fits, encode, shape, Operation.fillers_eq_zero, IntegerFormat.Writes]
  | wideOneValue =>
    refine ((recognizes_readWideOneValue shape wide).map _).congr fun operand bytes => ?_
    cases operand <;> simp [Fits, encode, shape, Operation.fillers_eq_zero, IntegerFormat.Writes]
  | twoValue =>
    refine (recognizes_readTwoValue wide).congr fun operand bytes => ?_
    cases operand <;> simp [Fits, encode, shape, Operation.fillers_eq_zero]
  | branch =>
    refine ((recognizes_readDisplacement operation).map _).congr fun operand bytes => ?_
    cases operand <;> simp [Fits, encode, shape, Operation.fillers_eq_zero, IntegerFormat.Writes]
  | valueExtra =>
    refine (recognizes_readValueExtra operation shape).congr fun operand bytes => ?_
    cases operand <;> simp [Fits, encode, shape]
  | table =>
    refine (recognizes_fail _).congr fun operand bytes => ?_
    cases operand <;> simp [Fits, shape]

namespace Instruction

/-- An operation is read where its code is. -/
theorem recognizes_readOperation :
    Recognizes (fun operation bytes => bytes = [operation.code]) readOperation := by
  refine (recognizes_u8.map Operation.ofCode).congr fun operation bytes => ?_
  constructor
  · rintro ⟨code, rfl, rfl⟩
    rw [Operation.code_ofCode]
  · rintro rfl
    exact ⟨operation.code, Operation.ofCode_code operation, rfl⟩

/-- Reads one instruction whose offset is known. -/
def readFrom (offset : UInt32) : Read Instruction := do
  let operation ← readOperation
  if operation = .wide then
    let widened ← readOperation
    if widened = .wide then
      fail (.unsupported (.wideRecursion offset))
    else
      return ⟨widened, offset, ← Operand.read widened offset true, true⟩
  else
    return ⟨operation, offset, ← Operand.read operation offset false, false⟩

/-- The place of a cursor matters for the offset of an instruction only. -/
theorem read_eq_readFrom (start : Cursor) :
    read start = readFrom start.position.toUInt32 start := rfl

/-- The part of an instruction behind a code byte that is not `wide`. -/
theorem recognizes_operand (operation : Operation) (offset : UInt32) (wide : Bool) :
    Recognizes (fun (instruction : Instruction) bytes => instruction.operation = operation ∧
        instruction.offset = offset ∧ instruction.wide = wide ∧
        instruction.operand.Fits operation wide ∧
        ∃ filler, filler.length = operation.fillers ∧
          bytes = instruction.operand.encode operation wide ++ filler)
      (do return ⟨operation, offset, ← Operand.read operation offset wide, wide⟩) := by
  refine ((Operand.recognizes_read operation offset wide).bind fun operand =>
    recognizes_pure _).congr fun instruction bytes => ?_
  constructor
  · rintro ⟨operand, _, _, ⟨fits, filler, whole, rfl⟩, ⟨rfl, rfl⟩, rfl⟩
    exact ⟨rfl, rfl, rfl, fits, filler, whole, by rw [List.append_nil]⟩
  · rintro ⟨rfl, rfl, rfl, fits, filler, whole, rfl⟩
    exact ⟨_, _, _, ⟨fits, filler, whole, rfl⟩, ⟨rfl, rfl⟩, (List.append_nil _).symm⟩

/-- An instruction is read from its bytes, whatever its fillers are. -/
theorem recognizes_readFrom (offset : UInt32) :
    Recognizes (fun instruction bytes => instruction.offset = offset ∧ instruction.Encodable ∧
        ∃ filler, filler.length = instruction.operation.fillers ∧
          bytes = instruction.encodeWith filler)
      (readFrom offset) := by
  -- an operation; behind `wide` another one, which may not be `wide` again; then the operand
  refine (recognizes_readOperation.bind fun operation =>
    (recognizes_readOperation.bind fun widened =>
      (recognizes_fail _).ite (recognizes_operand widened offset true)).ite
        (recognizes_operand operation offset false)).congr fun instruction bytes => ?_
  constructor
  · rintro ⟨operation, _, _, rfl,
      ⟨rfl, widened, _, _, rfl, ⟨-, ⟨⟩⟩ | ⟨proper, rfl, rfl, wide, fits, filler, whole, rfl⟩, rfl⟩ |
        ⟨proper, rfl, rfl, narrow, fits, filler, whole, rfl⟩, rfl⟩
    · exact ⟨rfl, ⟨proper, wide ▸ fits⟩, filler, whole, by simp [encodeWith, wide]⟩
    · exact ⟨rfl, ⟨proper, narrow ▸ fits⟩, filler, whole, by simp [encodeWith, narrow]⟩
  · rintro ⟨rfl, ⟨proper, fits⟩, filler, whole, rfl⟩
    obtain ⟨operation, offset, operand, wide⟩ := instruction
    cases wide with
    | true =>
      exact ⟨.wide, _, _, rfl, .inl ⟨rfl, operation, _, _, rfl,
        .inr ⟨proper, rfl, rfl, rfl, fits, filler, whole, rfl⟩, rfl⟩, rfl⟩
    | false =>
      exact ⟨operation, _, _, rfl, .inr ⟨proper, rfl, rfl, rfl, fits, filler, whole, rfl⟩, rfl⟩

/-! ## Code arrays -/

/-- The bytes are those of the instructions, one after the other without a gap, the first of them at
`position`. -/
def Tiles : (position : Nat) → List Instruction → List UInt8 → Prop
  | _, [], bytes => bytes = []
  | position, instruction :: others, bytes =>
    ∃ filler back, filler.length = instruction.operation.fillers ∧
      bytes = instruction.encodeWith filler ++ back ∧
      instruction.offset = position.toUInt32 ∧ instruction.Encodable ∧
      Tiles (position + (instruction.encodeWith filler).length) others back

/-- An instruction has at least one byte. -/
theorem encodeWith_ne_nil (instruction : Instruction) (filler : List UInt8) :
    instruction.encodeWith filler ≠ [] := by
  simp [encodeWith]

/-- The first instruction is read where its bytes start, and the others are behind them. -/
theorem Tiles.read_cons {cursor : Cursor} {first : Instruction} {others : List Instruction}
    (tiles : Tiles cursor.position (first :: others) cursor.rest) :
    ∃ next, read cursor = .ok (first, next) ∧ Tiles next.position others next.rest := by
  obtain ⟨filler, back, whole, bytes, offset, encodable, tiles⟩ := tiles
  refine ⟨⟨back, _, cursor.base⟩, ?_, tiles⟩
  rw [read_eq_readFrom]
  exact (recognizes_readFrom _).reads ⟨offset, encodable, filler, whole, rfl⟩ cursor _
    ⟨bytes, rfl, rfl⟩

/-- A code array is read as the instructions whose bytes it is. -/
theorem readAll_eq_ok_iff {cursor : Cursor} {instructions : List Instruction} :
    readAll cursor = .ok instructions ↔ Tiles cursor.position instructions cursor.rest := by
  -- the buffer is empty, or an instruction cannot be read, or one is read and the rest follows
  fun_induction readAll cursor generalizing instructions with
  | case1 cursor empty =>
    have nothing : cursor.rest = [] := by simpa [Cursor.isEmpty] using empty
    rw [nothing]
    cases instructions with
    | nil => simp [Tiles]
    | cons first others =>
      constructor
      · intro same
        cases same
      · rintro ⟨filler, back, -, same, -⟩
        exact absurd (List.append_eq_nil_iff.1 same.symm).1 (encodeWith_ne_nil first filler)
  | case2 cursor some failure step =>
    constructor
    · intro same
      cases same
    · intro tiles
      cases instructions with
      | nil => simp [Cursor.isEmpty, show cursor.rest = [] from tiles] at some
      | cons first others =>
        obtain ⟨next, read, -⟩ := tiles.read_cons
        cases step.symm.trans read
  | case3 cursor some first next step rest =>
    constructor
    · intro found
      obtain ⟨front, ⟨offset, encodable, filler, whole, rfl⟩, passes⟩ :=
        (recognizes_readFrom _ _ _ _).1 ((read_eq_readFrom cursor).symm.trans step)
      obtain ⟨others, read, same⟩ := Except.bind_eq_ok.1 found
      cases same
      have tiles := rest.1 read
      rw [passes.position] at tiles
      exact ⟨filler, next.rest, whole, passes.rest, offset, encodable, tiles⟩
    · intro tiles
      cases instructions with
      | nil => simp [Cursor.isEmpty, show cursor.rest = [] from tiles] at some
      | cons head others =>
        obtain ⟨_, read, tiles⟩ := tiles.read_cons
        cases step.symm.trans read
        exact Except.bind_eq_ok.2 ⟨others, rest.2 tiles, rfl⟩

/-- The bytes of instructions come in their order. -/
@[simp] theorem encodeAll_cons (instruction : Instruction) (others : List Instruction) :
    encodeAll (instruction :: others) = instruction.encode ++ encodeAll others := rfl

/-- What a filler is makes no difference to the length of an instruction. -/
theorem length_encodeWith {instruction : Instruction} {filler : List UInt8}
    (whole : filler.length = instruction.operation.fillers) :
    (instruction.encodeWith filler).length = instruction.encode.length := by
  simp [encode, encodeWith, whole]

/-- Instructions run from a place if the first one is there and the others run from behind it. -/
theorem runningOffsets_cons {start : Nat} {instruction : Instruction} {others : List Instruction} :
    RunningOffsets start (instruction :: others) ↔
      instruction.offset.toNat = start ∧
        RunningOffsets (start + instruction.encode.length) others := by
  constructor
  · intro offsets
    refine ⟨offsets 0 (Nat.zero_lt_succ _), fun index inside => ?_⟩
    have later := offsets (index + 1) (Nat.succ_lt_succ inside)
    rw [List.take_succ_cons, encodeAll_cons, List.length_append, ← Nat.add_assoc] at later
    exact later
  · rintro ⟨first, offsets⟩ index inside
    cases index with
    | zero => exact first
    | succ index =>
      rw [List.take_succ_cons, encodeAll_cons, List.length_append, ← Nat.add_assoc]
      exact offsets index (Nat.lt_of_succ_lt_succ inside)

/-- Instructions at their offsets tile the bytes that they are written as. -/
theorem tiles_encodeAll {position : Nat} {instructions : List Instruction}
    (encodable : ∀ instruction ∈ instructions, instruction.Encodable)
    (offsets : RunningOffsets position instructions) :
    Tiles position instructions (encodeAll instructions) := by
  induction instructions generalizing position with
  | nil => rfl
  | cons instruction others induction =>
    obtain ⟨first, others⟩ := List.forall_mem_cons.1 encodable
    obtain ⟨here, later⟩ := runningOffsets_cons.1 offsets
    refine ⟨_, _, List.length_replicate, rfl, ?_, first, induction others later⟩
    rw [← here, Nat.toUInt32_eq, UInt32.ofNat_toNat]

/-- The byte at a place is the filler of an instruction, the last of its bytes. -/
def IsFiller (instructions : List Instruction) (place : Nat) : Prop :=
  ∃ instruction ∈ instructions, instruction.operation.fillers = 1 ∧
    place + 1 = instruction.offset.toNat + instruction.encode.length

/-- The bytes are those of the instructions, the first of them at `start`, except for fillers. -/
structure Encodes (start : Nat) (instructions : List Instruction) (bytes : List UInt8) : Prop where
  length : bytes.length = (encodeAll instructions).length
  bytes : ∀ place, ¬IsFiller instructions (start + place) →
    bytes[place]? = (encodeAll instructions)[place]?

/-- An instruction has the bytes it is written as, except for its filler. -/
theorem getElem?_encodeWith {instruction : Instruction} {filler : List UInt8}
    (whole : filler.length = instruction.operation.fillers) {place : Nat}
    (proper : ¬(instruction.operation.fillers = 1 ∧ place + 1 = instruction.encode.length)) :
    (instruction.encodeWith filler)[place]? = instruction.encode[place]? := by
  have front (filler : List UInt8) :
      instruction.encodeWith filler = instruction.encodeWith [] ++ filler := by
    simp [encodeWith]
  rw [encode, front, List.length_append, List.length_replicate] at proper
  rw [encode, front filler, front (List.replicate _ _), List.getElem?_append,
    List.getElem?_append]
  split
  · rfl
  · -- behind the operand there is nothing, or only the filler
    have one := instruction.operation.fillers_le_one
    rw [List.getElem?_eq_none (by omega),
      List.getElem?_eq_none (by rw [List.length_replicate]; omega)]

/-- What tiles the bytes of a buffer is well formed, starts at its offset and has its own bytes. -/
theorem Tiles.encodes {position : Nat} {instructions : List Instruction} {bytes : List UInt8}
    (tiles : Tiles position instructions bytes) (small : position + bytes.length < 2 ^ 32) :
    (∀ instruction ∈ instructions, instruction.Encodable) ∧ RunningOffsets position instructions ∧
      Encodes position instructions bytes := by
  induction instructions generalizing position bytes with
  | nil =>
    cases tiles
    exact ⟨by simp, fun _ inside => absurd inside (Nat.not_lt_zero _), rfl, fun _ _ => rfl⟩
  | cons instruction others induction =>
    obtain ⟨filler, back, whole, rfl, offset, encodable, rest⟩ := tiles
    have width := length_encodeWith whole
    rw [List.length_append] at small
    rw [width] at rest small
    have here : instruction.offset.toNat = position := by
      rw [offset, Nat.toUInt32_eq, UInt32.toNat_ofNat_of_lt' (Nat.lt_of_le_of_lt (by omega) small)]
    obtain ⟨others, offsets, length, bytes⟩ := induction rest (by omega)
    refine ⟨List.forall_mem_cons.2 ⟨encodable, others⟩,
      runningOffsets_cons.2 ⟨here, offsets⟩, ?_, ?_⟩
    · rw [List.length_append, encodeAll_cons, List.length_append, width, length]
    -- a byte in front belongs to this instruction, any other one to the instructions behind
    · intro place proper
      rw [encodeAll_cons, List.getElem?_append, List.getElem?_append, width]
      split
      · refine getElem?_encodeWith whole fun ⟨one, last⟩ => ?_
        exact proper ⟨instruction, List.mem_cons_self, one, by omega⟩
      · refine bytes _ fun ⟨other, listed, one, last⟩ => ?_
        exact proper ⟨other, List.mem_cons_of_mem _ listed, one, by omega⟩

/-- Reading a code array and writing its instructions are inverse to each other. The instructions of
a buffer can be written, start where the ones before them end, and are written as the buffer except
for fillers; and instructions that can be written and start there are read from what they are
written as. -/
theorem readAll_inverse_encodeAll :
    (∀ (bytes : List UInt8) (base : Nat) (instructions : List Instruction),
      bytes.length < 2 ^ 32 → readAll ⟨bytes, 0, base⟩ = .ok instructions →
        (∀ instruction ∈ instructions, instruction.Encodable) ∧ RunningOffsets 0 instructions ∧
          Encodes 0 instructions bytes) ∧
    ∀ (instructions : List Instruction) (base : Nat),
      (∀ instruction ∈ instructions, instruction.Encodable) → RunningOffsets 0 instructions →
        readAll ⟨encodeAll instructions, 0, base⟩ = .ok instructions := by
  constructor
  · intro bytes base instructions small found
    have tiles : Tiles 0 instructions bytes := readAll_eq_ok_iff.1 found
    exact tiles.encodes (by omega)
  · intro instructions base encodable offsets
    exact readAll_eq_ok_iff.2 (tiles_encodeAll encodable offsets)

/-- A widened increment, a pushed byte with and without a `wide` operation, an interface call with a
filler that is not zero, a far and a near jump, and a return. -/
def mixedCode : List UInt8 :=
  [0xC4, 0x84, 0x01, 0x2C, 0xFF, 0x38, 0x10, 0xF9, 0xC4, 0x10, 0x80, 0xB9, 0x00, 0x07, 0x02, 0x09,
    0xC8, 0xFF, 0xFF, 0xFF, 0xF0, 0xA7, 0xFF, 0xF1, 0xB1]

/-- The instructions of the code. -/
def mixedInstructions : List Instruction :=
  [⟨.intInc, 0, .twoValue 300 (-200), true⟩, ⟨.bytePush, 6, .oneValue (-7), false⟩,
    ⟨.bytePush, 8, .oneValue (-128), true⟩, ⟨.invoke .interface, 11, .valueExtra 7 2, false⟩,
    ⟨.gotoWide, 16, .branch (-16), false⟩, ⟨.goto, 21, .branch (-15), false⟩,
    ⟨.returnVoid, 24, .simple, false⟩]

/-- Code of all shapes, in which one byte of a filler is lost. -/
theorem readAll_inverse_encodeAll_mixed :
    readAll ⟨mixedCode, 0, 0⟩ = .ok mixedInstructions ∧ RunningOffsets 0 mixedInstructions ∧
      Encodes 0 mixedInstructions mixedCode ∧
      encodeAll mixedInstructions = mixedCode.set 15 0 ∧
      readAll ⟨mixedCode.set 15 0, 0, 0⟩ = .ok mixedInstructions := by
  have found : readAll ⟨mixedCode, 0, 0⟩ = .ok mixedInstructions :=
    Except.eq_ok_of_mem_toOption (by decide +kernel)
  have written : encodeAll mixedInstructions = mixedCode.set 15 0 := by decide +kernel
  obtain ⟨-, offsets, encodes⟩ := readAll_inverse_encodeAll.1 mixedCode 0 _ (by decide) found
  refine ⟨found, offsets, encodes, written, ?_⟩
  rw [← written]
  exact readAll_inverse_encodeAll.2 mixedInstructions 0 (by decide +kernel) (by decide +kernel)

end Instruction

end Bytecode

end ClassLowering
